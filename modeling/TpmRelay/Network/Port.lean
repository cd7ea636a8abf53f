import TpmRelay.Address.Ip
import TpmRelay.Fault

set_option autoImplicit false

namespace TpmRelay.Port

def first : Nat := 32768

def free (used : List UInt16) : UInt16 :=
  let candidates := (List.range (used.length + 1)).map fun n => UInt16.ofNat (first + n)
  (candidates.find? fun port => !used.contains port).getD (UInt16.ofNat first)

def lowest : UInt16 := 1024

-- Every IPv4 address is there, and of the IPv6 addresses the unspecified one alone. Port zero asks
-- for any port.
def check (ip : Ip) (port : UInt16) : Except Fault Unit :=
  if ip.isMulticast ∧ !ip.isV4 then .error ⟨.invalidInput, none⟩
  else if port ≠ 0 ∧ port < lowest then .error ⟨.permissionDenied, none⟩
  else if ip.isLinkLocal then .error ⟨.invalidInput, none⟩
  else if !ip.isV4 ∧ !ip.isUnspecified then .error ⟨.addressNotAvailable, none⟩
  else .ok ()

end TpmRelay.Port
