import LibSshpp.Posix.Stat

/-!
SFTP attributes at both ends of a version 3 connection. The server's
`fill_attributes` turns a `stat` result into libssh's attribute record, libssh
carries part of that record over the wire, and the client's
`attributes_from_native` turns what arrives into `Attributes`. The server fills
the 32-bit times under the flag ACMODTIME; the client reads the 64-bit times
under the flags ACCESSTIME and MODIFYTIME.
-/

set_option autoImplicit false
set_option relaxedAutoImplicit false

namespace LibSshpp.Sftp

open Posix

def attrSize : UInt32 := 0x00000001
def attrUidGid : UInt32 := 0x00000002
def attrPermissions : UInt32 := 0x00000004
def attrAcModTime : UInt32 := 0x00000008
def attrAccessTime : UInt32 := 0x00000008
def attrCreateTime : UInt32 := 0x00000010
def attrModifyTime : UInt32 := 0x00000020

def typeRegular : UInt8 := 1
def typeDirectory : UInt8 := 2
def typeSymlink : UInt8 := 3
def typeSpecial : UInt8 := 4
def typeUnknown : UInt8 := 5

/-- libssh's `sftp_attributes_struct`, all fields zero or null by default. -/
structure NativeAttributes where
  name : Option Bytes := none
  longname : Option Bytes := none
  flags : UInt32 := 0
  type : UInt8 := 0
  size : UInt64 := 0
  uid : UInt32 := 0
  gid : UInt32 := 0
  owner : Option Bytes := none
  group : Option Bytes := none
  permissions : UInt32 := 0
  atime64 : UInt64 := 0
  atime : UInt32 := 0
  createtime : UInt64 := 0
  mtime64 : UInt64 := 0
  mtime : UInt32 := 0
  deriving DecidableEq, Repr

/-- `fill_attributes` of the SFTP server. -/
def fillAttributes (st : Stat) : NativeAttributes where
  flags := attrSize ||| attrUidGid ||| attrPermissions ||| attrAcModTime
  size := st.size.toUInt64
  uid := st.uid
  gid := st.gid
  permissions := st.mode
  atime := st.atime.toUInt64.toUInt32
  mtime := st.mtime.toUInt64.toUInt32
  type :=
    if isRegularMode st.mode then typeRegular
    else if isDirectoryMode st.mode then typeDirectory
    else if isSymlinkMode st.mode then typeSymlink
    else typeSpecial

inductive FileType
  | regular | directory | symlink | special | unknown
  | socket | charDevice | blockDevice | fifo
  deriving DecidableEq, Repr

def fileTypeFromNative (type : UInt8) : FileType :=
  if type = typeRegular then .regular
  else if type = typeDirectory then .directory
  else if type = typeSymlink then .symlink
  else if type = typeSpecial then .special
  else .unknown

/-- The client's `Attributes`; a time point is its seconds since the epoch. -/
structure Attributes where
  name : Bytes
  longName : Bytes
  type : FileType
  size : UInt64
  uid : UInt32
  gid : UInt32
  owner : Option Bytes
  group : Option Bytes
  permissions : UInt32
  flags : UInt32
  atime : Option Int64
  mtime : Option Int64
  createtime : Option Int64
  deriving DecidableEq, Repr

/-- `Attributes::std_perms`. -/
def Attributes.stdPerms (attributes : Attributes) : UInt32 := attributes.permissions &&& 0o7777

/-- A 64-bit time of the native record, engaged when its flag is set. -/
def timeFromNative (flags flag : UInt32) (seconds : UInt64) : Option Int64 :=
  if flags &&& flag ≠ 0 then some seconds.toInt64 else none

/-- `attributes_from_native` of the client. -/
def attributesFromNative (raw : NativeAttributes) : Attributes where
  name := raw.name.getD []
  longName := raw.longname.getD []
  type := fileTypeFromNative raw.type
  size := raw.size
  uid := raw.uid
  gid := raw.gid
  owner := raw.owner
  group := raw.group
  permissions := raw.permissions
  flags := raw.flags
  atime := timeFromNative raw.flags attrAccessTime raw.atime64
  mtime := timeFromNative raw.flags attrModifyTime raw.mtime64
  createtime := timeFromNative raw.flags attrCreateTime raw.createtime

/-- What libssh's version 3 encoding keeps of a sent attribute record in the
record the receiver parses: flags, size, owner ids, permissions and the 32-bit
times arrive, and the receiver's 64-bit times stay zero. -/
structure WireVersion3 (transfer : NativeAttributes → NativeAttributes) : Prop where
  flags : ∀ sent, (transfer sent).flags = sent.flags
  size : ∀ sent, (transfer sent).size = sent.size
  uid : ∀ sent, (transfer sent).uid = sent.uid
  gid : ∀ sent, (transfer sent).gid = sent.gid
  permissions : ∀ sent, (transfer sent).permissions = sent.permissions
  atime : ∀ sent, (transfer sent).atime = sent.atime
  mtime : ∀ sent, (transfer sent).mtime = sent.mtime
  atime64 : ∀ sent, (transfer sent).atime64 = 0
  mtime64 : ∀ sent, (transfer sent).mtime64 = 0

/-- Times of a `stat` result that the 32-bit fields can hold. -/
def TimesFit (st : Stat) : Prop :=
  (0 ≤ st.atime ∧ st.atime < 0x100000000) ∧ 0 ≤ st.mtime ∧ st.mtime < 0x100000000

instance (st : Stat) : Decidable (TimesFit st) := inferInstanceAs (Decidable (_ ∧ _))

/-- The client's attributes describe the file of the `stat` result: same size,
owner ids and permission bits, and both times engaged with the original value. -/
def Recovers (st : Stat) (attributes : Attributes) : Prop :=
  attributes.size = st.size.toUInt64 ∧ attributes.uid = st.uid ∧ attributes.gid = st.gid ∧
    attributes.permissions = st.mode ∧ attributes.atime = some st.atime ∧
      attributes.mtime = some st.mtime

instance (st : Stat) (attributes : Attributes) : Decidable (Recovers st attributes) :=
  inferInstanceAs (Decidable (_ ∧ _))

section RoundTrip

variable {transfer : NativeAttributes → NativeAttributes} (hwire : WireVersion3 transfer)
  (st : Stat)

include hwire

theorem received_flags :
    (transfer (fillAttributes st)).flags =
      attrSize ||| attrUidGid ||| attrPermissions ||| attrAcModTime :=
  hwire.flags _

/-- The access time is engaged through the shared flag bit, but read from the
64-bit field that the wire leaves at zero. -/
theorem received_atime :
    (attributesFromNative (transfer (fillAttributes st))).atime = some 0 := by
  simp only [attributesFromNative, received_flags hwire, hwire.atime64]
  rfl

/-- The modification time is never engaged: the server does not set its flag. -/
theorem received_mtime :
    (attributesFromNative (transfer (fillAttributes st))).mtime = none := by
  simp only [attributesFromNative, received_flags hwire]
  rfl

/-- Over a version 3 connection the client recovers size, owner ids and
permissions of every `stat` result, but reports the epoch as access time and no
modification time; so no `stat` result survives the trip. -/
theorem attributes_never_recovered :
    ((attributesFromNative (transfer (fillAttributes st))).size = st.size.toUInt64 ∧
      (attributesFromNative (transfer (fillAttributes st))).uid = st.uid ∧
      (attributesFromNative (transfer (fillAttributes st))).gid = st.gid ∧
      (attributesFromNative (transfer (fillAttributes st))).permissions = st.mode ∧
      (attributesFromNative (transfer (fillAttributes st))).atime = some 0 ∧
      (attributesFromNative (transfer (fillAttributes st))).mtime = none) ∧
    ¬ Recovers st (attributesFromNative (transfer (fillAttributes st))) := by
  have hmtime := received_mtime hwire st
  refine ⟨⟨hwire.size _, hwire.uid _, hwire.gid _, hwire.permissions _,
    received_atime hwire st, hmtime⟩, ?_⟩
  rintro ⟨-, -, -, -, -, hsome⟩
  rw [hmtime] at hsome
  exact nomatch hsome

end RoundTrip

/-- libssh's transfer of an attribute record: the receiver starts from a zeroed
record and derives the file type from the permission bits. -/
def transferVersion3 (sent : NativeAttributes) : NativeAttributes where
  flags := sent.flags
  size := sent.size
  uid := sent.uid
  gid := sent.gid
  permissions := sent.permissions
  type :=
    if isRegularMode sent.permissions then typeRegular
    else if isDirectoryMode sent.permissions then typeDirectory
    else if isSymlinkMode sent.permissions then typeSymlink
    else typeUnknown
  atime := sent.atime
  mtime := sent.mtime

theorem wireVersion3_transferVersion3 : WireVersion3 transferVersion3 := by
  constructor <;> exact fun _ ↦ rfl

/-- A regular file of ten bytes, read and written in 2023. -/
def reportStat : Stat where
  size := 10
  uid := 1000
  gid := 100
  mode := 0o100644
  atime := 1700000000
  mtime := 1690000000

theorem attributes_never_recovered_report :
    TimesFit reportStat ∧
      ¬ Recovers reportStat (attributesFromNative (transferVersion3 (fillAttributes reportStat))) :=
  ⟨by decide, (attributes_never_recovered wireVersion3_transferVersion3 reportStat).2⟩

theorem report_times_lost :
    WireVersion3 transferVersion3 ∧ TimesFit reportStat ∧
      ¬ Recovers reportStat (attributesFromNative (transferVersion3 (fillAttributes reportStat))) :=
  ⟨wireVersion3_transferVersion3, by decide, by decide⟩

end LibSshpp.Sftp
