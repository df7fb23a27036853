/-!
Message codes. `ofByte?` reads exactly the codes that `toByte` writes. Code 31
is shared: during a group exchange it carries the server's group instead of a
reply.
-/
namespace SecureShell

inductive MessageCode where
  | disconnect
  | ignore
  | unimplemented
  | debug
  | serviceRequest
  | serviceAccept
  | kexInit
  | newKeys
  | dhInit
  | dhReply
  | gexInit
  | gexReply
  | gexRequest
  | userauthRequest
  | userauthFailure
  | userauthSuccess
  | userauthBanner
  | userauthPkOk
  | globalRequest
  | requestSuccess
  | requestFailure
  | channelOpen
  | channelOpenConfirmation
  | channelOpenFailure
  | channelWindowAdjust
  | channelData
  | channelExtendedData
  | channelEof
  | channelClose
  | channelRequest
  | channelSuccess
  | channelFailure
  deriving DecidableEq

namespace MessageCode

def toByte : MessageCode → UInt8
  | .disconnect => 1
  | .ignore => 2
  | .unimplemented => 3
  | .debug => 4
  | .serviceRequest => 5
  | .serviceAccept => 6
  | .kexInit => 20
  | .newKeys => 21
  | .dhInit => 30
  | .dhReply => 31
  | .gexInit => 32
  | .gexReply => 33
  | .gexRequest => 34
  | .userauthRequest => 50
  | .userauthFailure => 51
  | .userauthSuccess => 52
  | .userauthBanner => 53
  | .userauthPkOk => 60
  | .globalRequest => 80
  | .requestSuccess => 81
  | .requestFailure => 82
  | .channelOpen => 90
  | .channelOpenConfirmation => 91
  | .channelOpenFailure => 92
  | .channelWindowAdjust => 93
  | .channelData => 94
  | .channelExtendedData => 95
  | .channelEof => 96
  | .channelClose => 97
  | .channelRequest => 98
  | .channelSuccess => 99
  | .channelFailure => 100

def ofByte? : UInt8 → Option MessageCode
  | 1 => some .disconnect
  | 2 => some .ignore
  | 3 => some .unimplemented
  | 4 => some .debug
  | 5 => some .serviceRequest
  | 6 => some .serviceAccept
  | 20 => some .kexInit
  | 21 => some .newKeys
  | 30 => some .dhInit
  | 31 => some .dhReply
  | 32 => some .gexInit
  | 33 => some .gexReply
  | 34 => some .gexRequest
  | 50 => some .userauthRequest
  | 51 => some .userauthFailure
  | 52 => some .userauthSuccess
  | 53 => some .userauthBanner
  | 60 => some .userauthPkOk
  | 80 => some .globalRequest
  | 81 => some .requestSuccess
  | 82 => some .requestFailure
  | 90 => some .channelOpen
  | 91 => some .channelOpenConfirmation
  | 92 => some .channelOpenFailure
  | 93 => some .channelWindowAdjust
  | 94 => some .channelData
  | 95 => some .channelExtendedData
  | 96 => some .channelEof
  | 97 => some .channelClose
  | 98 => some .channelRequest
  | 99 => some .channelSuccess
  | 100 => some .channelFailure
  | _ => none

def name : MessageCode → String
  | .disconnect => "SSH_MSG_DISCONNECT"
  | .ignore => "SSH_MSG_IGNORE"
  | .unimplemented => "SSH_MSG_UNIMPLEMENTED"
  | .debug => "SSH_MSG_DEBUG"
  | .serviceRequest => "SSH_MSG_SERVICE_REQUEST"
  | .serviceAccept => "SSH_MSG_SERVICE_ACCEPT"
  | .kexInit => "SSH_MSG_KEXINIT"
  | .newKeys => "SSH_MSG_NEWKEYS"
  | .dhInit => "SSH_MSG_KEXDH_INIT"
  | .dhReply => "SSH_MSG_KEXDH_REPLY"
  | .gexInit => "SSH_MSG_KEX_DH_GEX_INIT"
  | .gexReply => "SSH_MSG_KEX_DH_GEX_REPLY"
  | .gexRequest => "SSH_MSG_KEX_DH_GEX_REQUEST"
  | .userauthRequest => "SSH_MSG_USERAUTH_REQUEST"
  | .userauthFailure => "SSH_MSG_USERAUTH_FAILURE"
  | .userauthSuccess => "SSH_MSG_USERAUTH_SUCCESS"
  | .userauthBanner => "SSH_MSG_USERAUTH_BANNER"
  | .userauthPkOk => "SSH_MSG_USERAUTH_PK_OK"
  | .globalRequest => "SSH_MSG_GLOBAL_REQUEST"
  | .requestSuccess => "SSH_MSG_REQUEST_SUCCESS"
  | .requestFailure => "SSH_MSG_REQUEST_FAILURE"
  | .channelOpen => "SSH_MSG_CHANNEL_OPEN"
  | .channelOpenConfirmation => "SSH_MSG_CHANNEL_OPEN_CONFIRMATION"
  | .channelOpenFailure => "SSH_MSG_CHANNEL_OPEN_FAILURE"
  | .channelWindowAdjust => "SSH_MSG_CHANNEL_WINDOW_ADJUST"
  | .channelData => "SSH_MSG_CHANNEL_DATA"
  | .channelExtendedData => "SSH_MSG_CHANNEL_EXTENDED_DATA"
  | .channelEof => "SSH_MSG_CHANNEL_EOF"
  | .channelClose => "SSH_MSG_CHANNEL_CLOSE"
  | .channelRequest => "SSH_MSG_CHANNEL_REQUEST"
  | .channelSuccess => "SSH_MSG_CHANNEL_SUCCESS"
  | .channelFailure => "SSH_MSG_CHANNEL_FAILURE"

def label (code : MessageCode) : String := s!"{code.name}({code.toByte.toNat})"

def describe (byte : UInt8) : String :=
  match ofByte? byte with
  | some code => code.label
  | none => s!"unknown({byte.toNat})"

/-- The group message of a group exchange shares its code with a reply. -/
def gexGroup : MessageCode := .dhReply

theorem ofByte?_toByte (code : MessageCode) : ofByte? code.toByte = some code := by
  cases code <;> rfl

theorem toByte_injective {first second : MessageCode} (same : first.toByte = second.toByte) :
    first = second := by
  have read := ofByte?_toByte first
  rw [same, ofByte?_toByte] at read
  exact (Option.some.inj read).symm

theorem toByte_of_ofByte? {byte : UInt8} {code : MessageCode} (read : ofByte? byte = some code) :
    byte = code.toByte := by
  unfold ofByte? at read
  split at read <;> cases read <;> rfl

end MessageCode

end SecureShell
