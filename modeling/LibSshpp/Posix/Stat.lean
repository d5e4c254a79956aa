import LibSshpp.Foundation.Bytes

/-!
The part of `struct stat` the library reads, and the file type bits of its mode.
-/

set_option autoImplicit false
set_option relaxedAutoImplicit false

namespace LibSshpp.Posix

/-- The result of a `stat` call. -/
structure Stat where
  size : Int64
  uid : UInt32
  gid : UInt32
  mode : UInt32
  atime : Int64
  mtime : Int64
  deriving DecidableEq, Repr

def modeTypeMask : UInt32 := 0o170000
def modeRegular : UInt32 := 0o100000
def modeDirectory : UInt32 := 0o040000
def modeSymlink : UInt32 := 0o120000

/-- The permission bits of a mode. -/
def modePermissions : UInt32 := 0o7777

def isRegularMode (mode : UInt32) : Bool := mode &&& modeTypeMask = modeRegular

def isDirectoryMode (mode : UInt32) : Bool := mode &&& modeTypeMask = modeDirectory

def isSymlinkMode (mode : UInt32) : Bool := mode &&& modeTypeMask = modeSymlink

end LibSshpp.Posix
