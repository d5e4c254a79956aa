import Mathlib.Data.Int.Notation
import Mathlib.Tactic.SplitIfs

/-!
The library's error values. An `ErrorInfo` carries a code of one of two
categories, the text libssh had at the point of failure and the operation that
failed; `make_error_info` and `make_sftp_error_info` fill it from libssh.
-/

set_option autoImplicit false
set_option relaxedAutoImplicit false

namespace LibSshpp

inductive Errc
  | ok
  | fatal | requestDenied | interrupted | wouldBlock | timedOut | cancelled | notConnected
  | alreadyConnected | connectionLost | protocolError | bannerExchangeFailed
  | keyExchangeFailed | rekeyFailed
  | hostKeyUnknown | hostKeyChanged | hostKeyTypeMismatch | hostKeyRejected | knownHostsIoError
  | authDenied | authPartial | authMethodUnavailable | authNoMoreMethods | passphraseRequired
  | passphraseIncorrect | agentUnavailable | gssapiError
  | keyImportFailed | keyExportFailed | keyGenerationFailed | unsupportedKeyType
  | channelOpenFailed | channelClosed | channelEof | channelRequestFailed | ptyRequestFailed
  | sftpUnavailable | scpError | forwardingFailed | x11Failed
  | invalidHandle | invalidArgument | unsupportedOperation | outOfMemory | unknown
  deriving DecidableEq, Repr

/-- An error code with its category: the library's own codes, or the status of
an SFTP reply. -/
inductive ErrorCode
  | ssh (code : Errc)
  | sftp (status : ℤ)
  deriving DecidableEq, Repr

structure ErrorInfo where
  code : ErrorCode
  message : String := ""
  operation : String := ""
  deriving DecidableEq, Repr

/-- `ErrorInfo::operator bool`: the code is not zero, in either category. -/
def ErrorInfo.isSet (info : ErrorInfo) : Bool :=
  info.code ≠ .ssh .ok && info.code ≠ .sftp 0

abbrev Result (α : Type) := Except ErrorInfo α

/-- libssh's last error on a session: `ssh_get_error_code` and `ssh_get_error`. -/
structure SshError where
  code : ℤ := 0
  text : String := ""
  deriving DecidableEq, Repr

def sshOk : ℤ := 0
def sshRequestDenied : ℤ := 1
def sshFatal : ℤ := 2
def sshEintr : ℤ := 3

/-- `make_error_info` on a live session. -/
def makeErrorInfo (last : SshError) (operation : String) (fallback : Errc) : ErrorInfo where
  operation := operation
  message := last.text
  code := .ssh (
    if last.code = sshRequestDenied then .requestDenied
    else if last.code = sshFatal then .fatal
    else if last.code = sshEintr then .interrupted
    else fallback)

/-- `make_sftp_error_info` on a live session, from the status of `sftp_get_error`. -/
def makeSftpErrorInfo (status : ℤ) (last : SshError) (operation : String) : ErrorInfo where
  operation := operation
  message := last.text
  code := .sftp status

/-- The error of an SFTP status is set unless the status is `SSH_FX_OK`. -/
theorem makeSftpErrorInfo_isSet (status : ℤ) (last : SshError) (operation : String) :
    (makeSftpErrorInfo status last operation).isSet = true ↔ status ≠ 0 := by
  simp [ErrorInfo.isSet, makeSftpErrorInfo]

/-- libssh's error code can only turn the fallback into one of three other codes. -/
theorem makeErrorInfo_code (last : SshError) (operation : String) (fallback : Errc) :
    (makeErrorInfo last operation fallback).code ∈
      [.ssh .requestDenied, .ssh .fatal, .ssh .interrupted, .ssh fallback] := by
  unfold makeErrorInfo
  split_ifs <;> simp

end LibSshpp
