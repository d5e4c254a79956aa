import LibSshpp.Foundation.Bytes
import Mathlib.Data.List.Infix

/-!
Local files behind C++ streams. Bytes reach the file of an output stream in order
until an I/O error, after which the stream is bad and takes nothing more; its
buffer only decides whether a later write or `close` meets the error. An input
stream fails when a read gets less than it asked for, at the end of the file and
at an I/O error alike. Where the error is, if there is one, is given in bytes.
-/

set_option autoImplicit false
set_option relaxedAutoImplicit false

namespace LibSshpp.Posix

/-- `n` bytes fit before the I/O error, if there is one. -/
def Within (limit : Option ℕ) (n : ℕ) : Prop :=
  ∀ room ∈ limit, n ≤ room

/-- The bytes that lie before the I/O error. -/
def upTo (limit : Option ℕ) (data : Bytes) : Bytes :=
  match limit with
  | none => data
  | some room => data.take room

theorem upTo_isPrefix (limit : Option ℕ) (data : Bytes) : upTo limit data <+: data := by
  cases limit with
  | none => exact List.prefix_rfl
  | some room => exact List.take_prefix room data

theorem upTo_eq_self_iff {limit : Option ℕ} {data : Bytes} :
    upTo limit data = data ↔ Within limit data.length := by
  cases limit with
  | none => exact ⟨fun _ _ h ↦ (nomatch h), fun _ ↦ rfl⟩
  | some room =>
    rw [upTo, List.take_eq_self_iff]
    exact ⟨fun h _ hroom ↦ Option.mem_some.mp hroom ▸ h, fun h ↦ h room rfl⟩

theorem within_upTo (limit : Option ℕ) (data : Bytes) : Within limit (upTo limit data).length := by
  intro room hroom
  rw [Option.mem_def.mp hroom]
  exact List.length_take_le room data

/-- What fits leaves the rest of the room to what is behind it. -/
theorem upTo_append {limit : Option ℕ} {first : Bytes} (h : Within limit first.length)
    (second : Bytes) :
    upTo limit (first ++ second) = first ++ upTo (limit.map (· - first.length)) second := by
  cases limit with
  | none => rfl
  | some room =>
    show (first ++ second).take room = first ++ second.take (room - first.length)
    rw [List.take_append, List.take_of_length_le (h room rfl)]

/-- A local path as one transfer meets it: the file there, the permissions `status`
reports, if it succeeds, whether the file can be opened, and where an I/O error
stops its stream, if one does. -/
structure LocalFile where
  path : String
  content : Option Bytes := none
  permissions : Option UInt32 := some 0o644
  canOpen : Bool := true
  ioLimit : Option ℕ := none
  deriving DecidableEq, Repr

/-! ### Output -/

/-- An output stream with the file behind it and the number of bytes that file can
hold. -/
structure OutStream where
  content : Bytes := []
  room : Option ℕ := none
  bad : Bool := false
  deriving DecidableEq, Repr

namespace OutStream

/-- What the file takes of some data. -/
def taken (out : OutStream) (data : Bytes) : Bytes :=
  if out.bad then [] else upTo (out.room.map (· - out.content.length)) data

def write (out : OutStream) (data : Bytes) : OutStream :=
  { out with
    content := out.content ++ out.taken data
    bad := out.bad || out.taken data ≠ data }

/-- The stream has room for `n` more bytes. -/
def Takes (out : OutStream) (n : ℕ) : Prop :=
  n = 0 ∨ (out.bad = false ∧ Within (out.room.map (· - out.content.length)) n)

theorem write_nil (out : OutStream) : out.write [] = out := by
  have htaken : out.taken [] = [] := by
    unfold taken upTo
    split
    · rfl
    · split <;> simp
  rcases out with ⟨content, room, bad⟩
  simp [write, htaken]

/-- Two writes are one write of both data: past an error the second one does
nothing, as the rest of a single write would. -/
theorem write_append (out : OutStream) (first second : Bytes) :
    (out.write first).write second = out.write (first ++ second) := by
  rcases out with ⟨content, room, _ | _⟩
  · cases room with
    | none => simp [write, taken, upTo]
    | some room =>
      by_cases hfits : first.length ≤ room - content.length
      · have hall : (first ++ second).take (room - content.length) =
            first ++ second.take (room - (content.length + first.length)) := by
          rw [List.take_append, List.take_of_length_le hfits, Nat.sub_sub]
        have hfirst : first.take (room - content.length) = first := List.take_of_length_le hfits
        simp [write, taken, upTo, hall, hfirst]
      · have hall : (first ++ second).take (room - content.length) =
            first.take (room - content.length) := List.take_append_of_le_length (by omega)
        have hcut : first.take (room - content.length) ≠ first := by
          rw [Ne, List.take_eq_self_iff]
          exact hfits
        have hcut' : first.take (room - content.length) ≠ first ++ second := by
          intro heq
          have hlength := congrArg List.length heq
          rw [List.length_take, List.length_append] at hlength
          omega
        simp [write, taken, upTo, hall, hcut, hcut']
  · simp [write, taken]

/-- All the data reaches the file exactly when there is room for it. -/
theorem write_content_iff (out : OutStream) (data : Bytes) :
    (out.write data).content = out.content ++ data ↔ out.Takes data.length := by
  rw [write, List.append_cancel_left_eq, taken, Takes]
  cases hbad : out.bad with
  | true => simp [eq_comm]
  | false =>
    simp only [Bool.false_eq_true, if_false, upTo_eq_self_iff, true_and]
    constructor
    · exact .inr
    · rintro (hzero | hwithin)
      · intro room _
        omega
      · exact hwithin

/-- A stream that was just opened has the room of its file. -/
theorem write_fresh_iff (room : Option ℕ) (data : Bytes) :
    (({ room } : OutStream).write data).content = data ↔ data = [] ∨ Within room data.length := by
  have hroom : room.map (· - 0) = room := by
    cases room <;> rfl
  have hwrite := write_content_iff { room } data
  rw [List.nil_append] at hwrite
  rw [hwrite, Takes, List.length_eq_zero_iff, List.length_nil, hroom]
  exact or_congr_right (and_iff_right rfl)

end OutStream

/-! ### Input -/

/-- An input stream with the file behind it, the number of bytes that can be read
of it, and the position. -/
structure InStream where
  content : Bytes
  readable : Option ℕ := none
  position : ℕ := 0
  failed : Bool := false
  deriving DecidableEq, Repr

namespace InStream

/-- `read`, with the bytes `gcount` counts. -/
def read (stream : InStream) (len : ℕ) : Bytes × InStream :=
  let data := ((upTo stream.readable stream.content).drop stream.position).take len
  (data, { stream with
    position := stream.position + data.length
    failed := data.length < len })

end InStream

end LibSshpp.Posix
