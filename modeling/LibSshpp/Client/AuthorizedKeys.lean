import LibSshpp.Foundation.Error
import LibSshpp.Foundation.Lines
import LibSshpp.Foundation.Stoi

/-!
Keys and the lines of an `authorized_keys` file. A `Key` is a handle that libssh's pki made;
the wrapper's part is the table of key types, which is written twice, and the text around
the name of the type and the base64 of the key.
-/

set_option autoImplicit false
set_option relaxedAutoImplicit false

namespace LibSshpp.Client

/-- `ssh_keytypes_e`; the wrapper does not list all of it. -/
inductive NativeKeyType
  | unknown
  | dss | rsa | rsa1 | ecdsaP256 | ecdsaP384 | ecdsaP521 | ed25519
  | dssCert01 | rsaCert01 | ecdsaP256Cert01 | ecdsaP384Cert01 | ecdsaP521Cert01 | ed25519Cert01
  | skEcdsa | skEd25519 | skEcdsaCert01 | skEd25519Cert01
  | unlisted (code : ℤ)
  deriving DecidableEq, Repr

inductive KeyType
  | unknown
  | dss | rsa | rsa1 | ecdsaP256 | ecdsaP384 | ecdsaP521 | ed25519
  | dssCert01 | rsaCert01 | ecdsaP256Cert01 | ecdsaP384Cert01 | ecdsaP521Cert01 | ed25519Cert01
  | skEcdsa | skEd25519 | skEcdsaCert01 | skEd25519Cert01
  deriving DecidableEq, Repr

def keyTypeFromNative : NativeKeyType → KeyType
  | .dss => .dss
  | .rsa => .rsa
  | .rsa1 => .rsa1
  | .ecdsaP256 => .ecdsaP256
  | .ecdsaP384 => .ecdsaP384
  | .ecdsaP521 => .ecdsaP521
  | .ed25519 => .ed25519
  | .dssCert01 => .dssCert01
  | .rsaCert01 => .rsaCert01
  | .ecdsaP256Cert01 => .ecdsaP256Cert01
  | .ecdsaP384Cert01 => .ecdsaP384Cert01
  | .ecdsaP521Cert01 => .ecdsaP521Cert01
  | .ed25519Cert01 => .ed25519Cert01
  | .skEcdsa => .skEcdsa
  | .skEd25519 => .skEd25519
  | .skEcdsaCert01 => .skEcdsaCert01
  | .skEd25519Cert01 => .skEd25519Cert01
  | .unknown => .unknown
  | .unlisted _ => .unknown

def keyTypeToNative : KeyType → NativeKeyType
  | .dss => .dss
  | .rsa => .rsa
  | .rsa1 => .rsa1
  | .ecdsaP256 => .ecdsaP256
  | .ecdsaP384 => .ecdsaP384
  | .ecdsaP521 => .ecdsaP521
  | .ed25519 => .ed25519
  | .dssCert01 => .dssCert01
  | .rsaCert01 => .rsaCert01
  | .ecdsaP256Cert01 => .ecdsaP256Cert01
  | .ecdsaP384Cert01 => .ecdsaP384Cert01
  | .ecdsaP521Cert01 => .ecdsaP521Cert01
  | .ed25519Cert01 => .ed25519Cert01
  | .skEcdsa => .skEcdsa
  | .skEd25519 => .skEd25519
  | .skEcdsaCert01 => .skEcdsaCert01
  | .skEd25519Cert01 => .skEd25519Cert01
  | .unknown => .unknown

/-- The two tables agree on every type that the first one lists. -/
theorem keyTypeToNative_fromNative {type : NativeKeyType} (h : keyTypeFromNative type ≠ .unknown) :
    keyTypeToNative (keyTypeFromNative type) = type := by
  cases type with
  | unlisted code => exact absurd rfl h
  | _ => rfl

/-! ### Keys -/

/-- `ssh_keycmp_e`. -/
inductive KeyCmp
  | cmpPublic | cmpPrivate
  deriving DecidableEq, Repr

/-- What libssh's pki does with native keys `K`. A call that gives no result has returned
something other than `SSH_OK`, or a null pointer. -/
structure Pki (K : Type) where
  keyType : K → NativeKeyType
  typeToChar : NativeKeyType → Option Bytes
  typeFromName : Bytes → NativeKeyType
  exportPubkeyBase64 : K → Option Bytes
  importPubkeyBase64 : Bytes → NativeKeyType → Option K
  exportPrivkeyToPubkey : K → Option K
  keyCmp : K → K → KeyCmp → ℤ

structure Key (K : Type) where
  native : Option K := none

namespace Key

variable {K : Type} (pki : Pki K)

def type (key : Key K) : KeyType :=
  key.native.elim .unknown fun native ↦ keyTypeFromNative (pki.keyType native)

def typeName (key : Key K) : Bytes :=
  match key.native with
  | none => ascii "unknown"
  | some native => (pki.typeToChar (pki.keyType native)).getD (ascii "unknown")

def toPublicBase64 (key : Key K) : Result Bytes :=
  match key.native with
  | none => .error { code := .ssh .invalidHandle, operation := "Key::to_public_base64" }
  | some native =>
    match pki.exportPubkeyBase64 native with
    | none => .error { code := .ssh .keyExportFailed, operation := "ssh_pki_export_pubkey_base64" }
    | some b64 => .ok b64

def publicPart (key : Key K) : Result (Key K) :=
  match key.native with
  | none => .error { code := .ssh .invalidHandle, operation := "Key::public_part" }
  | some native =>
    match pki.exportPrivkeyToPubkey native with
    | none =>
      .error { code := .ssh .keyExportFailed, operation := "ssh_pki_export_privkey_to_pubkey" }
    | some pub => .ok { native := some pub }

def equals (key other : Key K) (comparePrivate : Bool) : Bool :=
  match key.native, other.native with
  | some native, some otherNative =>
    pki.keyCmp native otherNative (if comparePrivate then .cmpPrivate else .cmpPublic) = 0
  | none, none => true
  | _, _ => false

def fromPublicBase64 (b64 : Bytes) (type : KeyType) : Result (Key K) :=
  match pki.importPubkeyBase64 (cString b64) (keyTypeToNative type) with
  | none => .error { code := .ssh .keyImportFailed, operation := "ssh_pki_import_pubkey_base64" }
  | some native => .ok { native := some native }

/-- Bytes as a part of a message. -/
def messageText (text : Bytes) : String :=
  String.ofList (text.map fun byte ↦ Char.ofNat byte.toNat)

def fromAuthorizedKeysLine (line : Bytes) : Result (Key K) :=
  let typeName := nextField isSpace line
  -- the comment behind the base64 is read and goes nowhere
  let b64 := nextField isSpace typeName.2
  let nativeType := pki.typeFromName (cString typeName.1)
  if nativeType = .unknown then
    .error
      { code := .ssh .unsupportedKeyType
        message := "unrecognized key type '" ++ messageText typeName.1 ++ "'"
        operation := "ssh_key_type_from_name" }
  else fromPublicBase64 pki b64.1 (keyTypeFromNative nativeType)

def toAuthorizedKeysLine (key : Key K) (comment : Bytes) : Result Bytes := do
  let b64 ← key.toPublicBase64 pki
  let line := key.typeName pki ++ ascii " " ++ b64
  pure (if comment = [] then line else line ++ ascii " " ++ comment)

end Key

/-! ### What libssh promises -/

/-- A C string that can stand as a word of a line. -/
structure IsWord (text : Bytes) : Prop extends IsField isSpace text where
  no_nul : 0 ∉ text

/-- The names of key types and the base64 of keys are words. -/
structure Pki.WritesWords {K : Type} (pki : Pki K) : Prop where
  name : ∀ type name, pki.typeToChar type = some name → IsWord name
  base64 : ∀ key b64, pki.exportPubkeyBase64 key = some b64 → IsWord b64

/-- The names of the listed types lead back to the types, and the base64 of a key leads to
a key that is the same as the public part. -/
structure Pki.RoundTrips {K : Type} (pki : Pki K) : Prop extends pki.WritesWords where
  typeFromName : ∀ type name, keyTypeFromNative type ≠ .unknown →
    pki.typeToChar type = some name → pki.typeFromName name = type
  importPubkeyBase64 : ∀ key b64, pki.exportPubkeyBase64 key = some b64 →
    ∃ imported, pki.importPubkeyBase64 b64 (pki.keyType key) = some imported ∧
      ∀ pub, pki.exportPrivkeyToPubkey key = some pub → pki.keyCmp imported pub .cmpPublic = 0

namespace Key

variable {K : Type} {pki : Pki K}

/-- The wrapper lists the type of the key, and libssh has a name for it. -/
def Supported (pki : Pki K) (key : Key K) : Prop :=
  key.type pki ≠ .unknown ∧ ∀ native, key.native = some native →
    ∃ name, pki.typeToChar (pki.keyType native) = some name

theorem isWord_typeName (hpki : pki.WritesWords) (key : Key K) : IsWord (key.typeName pki) := by
  have hunknown : IsWord (ascii "unknown") := ⟨⟨by decide, by decide +kernel⟩, by decide +kernel⟩
  unfold typeName
  cases key.native with
  | none => exact hunknown
  | some native =>
    dsimp only
    cases hname : pki.typeToChar (pki.keyType native) with
    | none => exact hunknown
    | some name => exact hpki.name _ name hname

theorem toPublicBase64_eq_ok_iff {key : Key K} {b64 : Bytes} :
    key.toPublicBase64 pki = .ok b64 ↔
      ∃ native, key.native = some native ∧ pki.exportPubkeyBase64 native = some b64 := by
  unfold toPublicBase64
  constructor
  · intro h
    split at h
    · exact nomatch h
    · rename_i native hnative
      split at h
      · exact nomatch h
      · rename_i text hexport
        rw [← Except.ok.inj h]
        exact ⟨native, hnative, hexport⟩
  · rintro ⟨native, hnative, hexport⟩
    rw [hnative]
    dsimp only
    rw [hexport]

theorem isWord_toPublicBase64 (hpki : pki.WritesWords) {key : Key K} {b64 : Bytes}
    (h : key.toPublicBase64 pki = .ok b64) : IsWord b64 := by
  obtain ⟨native, -, hexport⟩ := toPublicBase64_eq_ok_iff.mp h
  exact hpki.base64 native b64 hexport

/-- A line is the two words with a blank between them, and nothing or a blank behind them. -/
theorem toAuthorizedKeysLine_eq_ok {key : Key K} {comment line : Bytes}
    (h : key.toAuthorizedKeysLine pki comment = .ok line) :
    ∃ b64 behind, key.toPublicBase64 pki = .ok b64 ∧ SepFirst isSpace behind ∧
      line = key.typeName pki ++ 0x20 :: (b64 ++ behind) := by
  unfold toAuthorizedKeysLine at h
  cases hb64 : key.toPublicBase64 pki with
  | error error =>
    rw [hb64] at h
    exact nomatch h
  | ok b64 =>
    rw [hb64] at h
    have hline := Except.ok.inj h
    by_cases hcomment : comment = []
    · rw [if_pos hcomment] at hline
      refine ⟨b64, [], rfl, nofun, ?_⟩
      rw [← hline, List.append_assoc, List.append_nil]
      rfl
    · rw [if_neg hcomment] at hline
      refine ⟨b64, 0x20 :: comment, rfl, ?_, ?_⟩
      · intro byte hbyte
        rw [← Option.some.inj hbyte]
        rfl
      · rw [← hline, List.append_assoc, List.append_assoc, List.append_assoc]
        rfl

/-- The two words of a line are read back, whatever is behind them. -/
theorem fromAuthorizedKeysLine_of_words {name b64 behind : Bytes} (hname : IsWord name)
    (hb64 : IsWord b64) (hbehind : SepFirst isSpace behind)
    (htype : keyTypeFromNative (pki.typeFromName name) ≠ .unknown) :
    fromAuthorizedKeysLine pki (name ++ 0x20 :: (b64 ++ behind)) =
      fromPublicBase64 pki b64 (keyTypeFromNative (pki.typeFromName name)) := by
  have hblank : SepFirst isSpace (0x20 :: (b64 ++ behind)) := by
    intro byte hbyte
    rw [← Option.some.inj hbyte]
    rfl
  have hknown : pki.typeFromName name ≠ .unknown := by
    intro hunknown
    rw [hunknown] at htype
    exact htype rfl
  unfold fromAuthorizedKeysLine
  rw [nextField_append hname.toIsField hblank]
  dsimp only
  rw [nextField_cons rfl, nextField_append hb64.toIsField hbehind, cString_eq_self hname.no_nul,
    if_neg hknown]

/-- For every comment: the line of a key of a supported type is read back as a key that equals
the public part. -/
theorem fromAuthorizedKeysLine_toAuthorizedKeysLine (pki : Pki K) (hpki : pki.RoundTrips)
    (key : Key K) (comment line : Bytes) (hsupported : key.Supported pki)
    (hline : key.toAuthorizedKeysLine pki comment = .ok line) :
    ∃ parsed, fromAuthorizedKeysLine pki line = .ok parsed ∧
      ∀ pub, key.publicPart pki = .ok pub → parsed.equals pki pub false = true := by
  obtain ⟨b64, behind, hb64, hbehind, rfl⟩ := toAuthorizedKeysLine_eq_ok hline
  obtain ⟨native, hnative, hexport⟩ := toPublicBase64_eq_ok_iff.mp hb64
  obtain ⟨htype, hnamed⟩ := hsupported
  obtain ⟨name, hname⟩ := hnamed native hnative
  rw [type, hnative, Option.elim_some] at htype
  have htypeName : key.typeName pki = name := by
    rw [typeName, hnative]
    dsimp only
    rw [hname]
    rfl
  have hread := hpki.typeFromName _ name htype hname
  obtain ⟨imported, himport, hsame⟩ := hpki.importPubkeyBase64 native b64 hexport
  have hword := isWord_toPublicBase64 hpki.toWritesWords hb64
  refine ⟨{ native := some imported }, ?_, ?_⟩
  · rw [htypeName, fromAuthorizedKeysLine_of_words (hpki.name _ name hname) hword hbehind
      (by rwa [hread]), hread, fromPublicBase64, keyTypeToNative_fromNative htype,
      cString_eq_self hword.no_nul, himport]
  · intro pub hpub
    rw [publicPart, hnative] at hpub
    dsimp only at hpub
    cases hpart : pki.exportPrivkeyToPubkey native with
    | none =>
      rw [hpart] at hpub
      exact nomatch hpub
    | some part =>
      rw [hpart] at hpub
      rw [← Except.ok.inj hpub]
      exact decide_eq_true (hsame part hpart)

end Key

/-- One pair of ed25519 keys: `true` is the private one and `false` its public part. -/
def ed25519Pair : Pki Bool where
  keyType := fun _ ↦ .ed25519
  typeToChar := fun type ↦ if type = .ed25519 then some (ascii "ssh-ed25519") else none
  typeFromName := fun name ↦ if name = ascii "ssh-ed25519" then .ed25519 else .unknown
  exportPubkeyBase64 := fun _ ↦ some (ascii "AAAAC3Nz")
  importPubkeyBase64 := fun b64 type ↦
    if b64 = ascii "AAAAC3Nz" ∧ type = .ed25519 then some false else none
  exportPrivkeyToPubkey := fun _ ↦ some false
  keyCmp := fun key other what ↦ if what = .cmpPrivate ∧ key ≠ other then 1 else 0

theorem ed25519Pair_roundTrips : ed25519Pair.RoundTrips where
  name := by
    intro type name h
    obtain ⟨-, hname⟩ := Option.ite_none_right_eq_some.mp h
    obtain rfl := Option.some.inj hname
    exact ⟨⟨by decide, by decide +kernel⟩, by decide +kernel⟩
  base64 := by
    intro key b64 h
    obtain rfl := Option.some.inj h
    exact ⟨⟨by decide, by decide +kernel⟩, by decide +kernel⟩
  typeFromName := by
    intro type name _ h
    obtain ⟨rfl, hname⟩ := Option.ite_none_right_eq_some.mp h
    obtain rfl := Option.some.inj hname
    rfl
  importPubkeyBase64 := by
    intro key b64 h
    obtain rfl := Option.some.inj h
    exact ⟨false, rfl, fun _ _ ↦ rfl⟩

theorem fromAuthorizedKeysLine_toAuthorizedKeysLine_pair :
    ∃ parsed : Key Bool,
      Key.fromAuthorizedKeysLine ed25519Pair
        (ascii "ssh-ed25519 AAAAC3Nz \tat\nhome ") = .ok parsed ∧
      ∀ pub, Key.publicPart ed25519Pair { native := some true } = .ok pub →
        parsed.equals ed25519Pair pub false = true :=
  Key.fromAuthorizedKeysLine_toAuthorizedKeysLine ed25519Pair ed25519Pair_roundTrips
    { native := some true } (ascii "\tat\nhome ") _
    ⟨by decide, fun _ _ ↦ ⟨ascii "ssh-ed25519", rfl⟩⟩ rfl

end LibSshpp.Client
