import LibSshpp.Program.Patch
import LibSshpp.SftpServer.HandleRelease
import LibSshpp.SftpServer.WriteRequests

/-!
The limit on the size of a file. The server checks where a WRITE would end by the offset in the
request. On a descriptor that appends the kernel does not look at the offset.
-/

set_option autoImplicit false
set_option relaxedAutoImplicit false

namespace LibSshpp.SftpServer

open Posix Program

section SizeLimit

variable (table : HandleTable) (options : Options)

/-- A WRITE makes no file larger than the limit that was not so before. -/
def StaysWithin (world : World) (message : ClientMessage) : Prop :=
  message.type = fxpWrite → options.maxFileSize ≠ 0 → ∀ ino,
    (world.fs.inode ino).data.length ≤ options.maxFileSize.toNat →
      ((serveMessage table options message world).2.fs.inode ino).data.length ≤
        options.maxFileSize.toNat

/-- Where a WRITE gets to a descriptor that appends, there is room behind the end of the
file. -/
def AppendsWithin (world : World) (message : ClientMessage) : Prop :=
  message.type = fxpWrite → options.maxFileSize ≠ 0 → ∀ file,
    WritesTo table options world message file → file.flags.append = true →
      (world.contents file).length ≤ options.maxFileSize.toNat →
        (world.contents file).length + (world.storedBytes message).length ≤
          options.maxFileSize.toNat

variable {table options} {message : ClientMessage} {world : World}

theorem length_payload_le (message : ClientMessage) :
    message.payload.length ≤ message.payloadLength.toNat := List.length_take_le _ _

theorem length_storedBytes_le (world : World) (message : ClientMessage) :
    (world.storedBytes message).length ≤ message.payloadLength.toNat :=
  (List.take_prefix _ _).length_le.trans (length_payload_le message)

/-- An offset that is not negative is so small that the sum in the check does not wrap. -/
theorem end_le_of_within (hlimit : options.maxFileSize ≠ 0)
    (hwithin : ¬ ExceedsLimit options message) (hoffset : ¬ message.offset.toInt64 < 0) :
    message.offset.toNat + message.payloadLength.toNat ≤ options.maxFileSize.toNat := by
  have hsum : ¬ message.offset + message.payloadLength.toUInt64 > options.maxFileSize :=
    fun h ↦ hwithin ⟨hlimit, h⟩
  have hlt := (toNatClampNeg_of_nonneg hoffset).2
  have hlength := message.payloadLength.toNat_lt
  rw [gt_iff_lt, UInt64.lt_iff_toNat_lt, UInt64.toNat_add, UInt32.toNat_toUInt64,
    Nat.mod_eq_of_lt (by omega)] at hsum
  omega

/-- The length of the file after a WRITE. -/
theorem length_write (htype : message.type = fxpWrite) (hbacked : world.Backed) {file : OpenFile}
    (h : WritesTo table options world message file) :
    ((serveMessage table options message world).2.fs.inode file.ino).data.length =
      if world.storedBytes message = [] then (world.contents file).length
      else max (world.contents file).length
        (world.writeStart file message + (world.storedBytes message).length) := by
  rw [write_inode htype hbacked h, if_pos rfl]
  exact length_patch 0 _ _ _

/-- A write to a descriptor that does not append ends within the limit. -/
theorem write_within_of_not_append (hlimit : options.maxFileSize ≠ 0) {file : OpenFile}
    (h : WritesTo table options world message file) (happend : ¬ file.flags.append = true) :
    world.writeStart file message + (world.storedBytes message).length ≤
      options.maxFileSize.toNat := by
  have hstart : world.writeStart file message = message.offset.toNat := by
    rw [World.writeStart, if_neg happend, (toNatClampNeg_of_nonneg h.offset).1]
  have hend := end_le_of_within hlimit h.within h.offset
  have hstored := length_storedBytes_le world message
  omega

theorem staysWithin_iff_appendsWithin (hbacked : world.Backed) :
    StaysWithin table options world message ↔ AppendsWithin table options world message := by
  constructor
  · intro hstays htype hlimit file hfile happend hsize
    have hafter := hstays htype hlimit file.ino hsize
    have hstart : world.writeStart file message = (world.contents file).length := if_pos happend
    rw [length_write htype hbacked hfile, hstart] at hafter
    by_cases hstored : world.storedBytes message = []
    · rw [hstored]
      exact hsize
    · rw [if_neg hstored] at hafter
      omega
  · intro happends htype hlimit ino hsize
    by_cases hwrites : ∃ file, WritesTo table options world message file
    · obtain ⟨file, hfile⟩ := hwrites
      by_cases hino : ino = file.ino
      · subst hino
        have hend : world.writeStart file message + (world.storedBytes message).length ≤
            options.maxFileSize.toNat := by
          by_cases happend : file.flags.append = true
          · rw [World.writeStart, if_pos happend]
            exact happends htype hlimit file hfile happend hsize
          · exact write_within_of_not_append hlimit hfile happend
        rw [length_write htype hbacked hfile]
        split_ifs
        · exact hsize
        · exact max_le hsize hend
      · rw [write_inode htype hbacked hfile, if_neg hino]
        exact hsize
    · rw [(write_refused htype (not_exists.mp hwrites)).2]
      exact hsize

end SizeLimit

/-- The limit is kept by every WRITE of a run exactly if no WRITE of the run appends more than
there is room for. -/
theorem staysWithin_run_iff (table : HandleTable) (options : Options) {world : World}
    (hbacked : world.Backed) (messages : List ClientMessage) :
    Allowed (serveMessage table options) (StaysWithin table options) messages world ↔
      Allowed (serveMessage table options) (AppendsWithin table options) messages world := by
  have hsame : ∀ (state : World) (message : ClientMessage), state.Backed →
      (StaysWithin table options state message ↔ AppendsWithin table options state message) :=
    fun _ _ hstate ↦ staysWithin_iff_appendsWithin hstate
  exact allowed_iff_of_invariant hsame (fun message state hstate ↦
    serveMessage_backed table options message state hstate.1) hbacked

/-- A server that allows six bytes in a file. -/
def smallFilesServer : Options := { srvServer with maxFileSize := 6 }

theorem staysWithin_run_iff_begin :
    Allowed (serveMessage HandleTable.firstFree smallFilesServer)
        (StaysWithin HandleTable.firstFree smallFilesServer)
        [{ type := fxpOpen, filename := some (ascii "f"), flags := fxfWrite },
          { type := fxpWrite, handle := [0, 0, 0, 0], offset := 3, data := some (ascii "abc") }]
        (World.begin singleFile [] [] []) ↔
      Allowed (serveMessage HandleTable.firstFree smallFilesServer)
        (AppendsWithin HandleTable.firstFree smallFilesServer)
        [{ type := fxpOpen, filename := some (ascii "f"), flags := fxfWrite },
          { type := fxpWrite, handle := [0, 0, 0, 0], offset := 3, data := some (ascii "abc") }]
        (World.begin singleFile [] [] []) :=
  staysWithin_run_iff HandleTable.firstFree smallFilesServer (singleFile_backed []) _

/-- Three bytes written at the offset 0 of a descriptor that appends to a file of five. -/
theorem append_exceeds_limit :
    ¬ Allowed (serveMessage HandleTable.firstFree smallFilesServer)
      (StaysWithin HandleTable.firstFree smallFilesServer)
      [{ type := fxpOpen, filename := some (ascii "f"), flags := fxfWrite ||| fxfAppend },
        { type := fxpWrite, handle := [0, 0, 0, 0], data := some (ascii "abc") }]
      (World.begin singleFile [] [] []) := by
  rintro ⟨-, h, -⟩
  have hsize := h rfl (by decide) 2 (by decide +kernel)
  exact absurd hsize (by decide +kernel)

end LibSshpp.SftpServer
