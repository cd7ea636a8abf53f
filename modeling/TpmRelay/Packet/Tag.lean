set_option autoImplicit false

namespace TpmRelay

inductive StructureTag where
  | rspCommand
  | null
  | noSessions
  | sessions
  | reserved1
  | reserved2
  | attestNv
  | attestCommandAudit
  | attestSessionAudit
  | attestCertify
  | attestQuote
  | attestTime
  | attestCreation
  | reserved3
  | creation
  | verified
  | authSecret
  | hashcheck
  | authSigned
  | fuManifest
  deriving DecidableEq, Repr

namespace StructureTag

def value : StructureTag → UInt16
  | rspCommand => 0x00C4
  | null => 0x8000
  | noSessions => 0x8001
  | sessions => 0x8002
  | reserved1 => 0x8003
  | reserved2 => 0x8004
  | attestNv => 0x8014
  | attestCommandAudit => 0x8015
  | attestSessionAudit => 0x8016
  | attestCertify => 0x8017
  | attestQuote => 0x8018
  | attestTime => 0x8019
  | attestCreation => 0x801A
  | reserved3 => 0x801B
  | creation => 0x8021
  | verified => 0x8022
  | authSecret => 0x8023
  | hashcheck => 0x8024
  | authSigned => 0x8025
  | fuManifest => 0x8029

def name : StructureTag → String
  | rspCommand => "TPM2_ST_RSP_COMMAND"
  | null => "TPM2_ST_NULL"
  | noSessions => "TPM2_ST_NO_SESSIONS"
  | sessions => "TPM2_ST_SESSIONS"
  | reserved1 => "TPM2_ST_RESERVED1"
  | reserved2 => "TPM2_ST_RESERVED2"
  | attestNv => "TPM2_ST_ATTEST_NV"
  | attestCommandAudit => "TPM2_ST_ATTEST_COMMAND_AUDIT"
  | attestSessionAudit => "TPM2_ST_ATTEST_SESSION_AUDIT"
  | attestCertify => "TPM2_ST_ATTEST_CERTIFY"
  | attestQuote => "TPM2_ST_ATTEST_QUOTE"
  | attestTime => "TPM2_ST_ATTEST_TIME"
  | attestCreation => "TPM2_ST_ATTEST_CREATION"
  | reserved3 => "TPM2_ST_RESERVED3"
  | creation => "TPM2_ST_CREATION"
  | verified => "TPM2_ST_VERIFIED"
  | authSecret => "TPM2_ST_AUTH_SECRET"
  | hashcheck => "TPM2_ST_HASHCHECK"
  | authSigned => "TPM2_ST_AUTH_SIGNED"
  | fuManifest => "TPM2_ST_FU_MANIFEST"

def title : StructureTag → String
  | rspCommand => "RspCommand"
  | null => "Null"
  | noSessions => "NoSessions"
  | sessions => "Sessions"
  | reserved1 => "Reserved1"
  | reserved2 => "Reserved2"
  | attestNv => "AttestNv"
  | attestCommandAudit => "AttestCommandAudit"
  | attestSessionAudit => "AttestSessionAudit"
  | attestCertify => "AttestCertify"
  | attestQuote => "AttestQuote"
  | attestTime => "AttestTime"
  | attestCreation => "AttestCreation"
  | reserved3 => "Reserved3"
  | creation => "Creation"
  | verified => "Verified"
  | authSecret => "AuthSecret"
  | hashcheck => "Hashcheck"
  | authSigned => "AuthSigned"
  | fuManifest => "FuManifest"

def all : List StructureTag :=
  [rspCommand, null, noSessions, sessions, reserved1, reserved2, attestNv, attestCommandAudit,
    attestSessionAudit, attestCertify, attestQuote, attestTime, attestCreation, reserved3, creation,
    verified, authSecret, hashcheck, authSigned, fuManifest]

def ofValue? (value : UInt16) : Option StructureTag :=
  all.find? (·.value = value)

theorem mem_all (tag : StructureTag) : tag ∈ all := by
  cases tag <;> decide

theorem ofValue?_value (tag : StructureTag) : ofValue? tag.value = some tag := by
  cases tag <;> decide

theorem value_of_ofValue? {value : UInt16} {tag : StructureTag}
    (found : ofValue? value = some tag) : tag.value = value := by
  simpa using List.find?_some found

end StructureTag

end TpmRelay
