import Nfs3.Wire.Codec

/-! Failures of reading, writing and the network: a kind, and a text for people. -/
namespace Nfs3

open Wire

inductive FailureKind where
  | notFound | permissionDenied | connectionRefused | connectionReset | hostUnreachable
  | networkUnreachable | connectionAborted | notConnected | addrInUse | addrNotAvailable
  | networkDown | brokenPipe | alreadyExists | wouldBlock | notADirectory | isADirectory
  | directoryNotEmpty | readOnlyFilesystem | staleNetworkFileHandle | invalidInput | invalidData
  | timedOut | writeZero | storageFull | notSeekable | quotaExceeded | fileTooLarge | resourceBusy
  | executableFileBusy | deadlock | crossesDevices | tooManyLinks | invalidFilename
  | argumentListTooLong | interrupted | unsupported | unexpectedEof | outOfMemory | other
  deriving DecidableEq

structure IoFailure where
  kind : FailureKind
  message : String
  deriving DecidableEq

namespace IoFailure

def ofRead (fault : ReadFault) : IoFailure :=
  match fault with
  | .endOfInput | .shortOpaque => ⟨.unexpectedEof, fault.message⟩
  | _ => ⟨.invalidData, fault.message⟩

def ofWrite : WriteFault → IoFailure
  | .lengthOverflow => ⟨.invalidData, "cannot cast `usize` to `u32`"⟩
  | .opaqueOverflow => ⟨.invalidData, "opaque data longer than u32::MAX bytes"⟩
  | .dataOverflow n =>
    ⟨.invalidInput, "WRITE data of " ++ toString n ++ " bytes exceeds an XDR opaque"⟩
  | .countMismatch count n =>
    ⟨.invalidInput, "WRITE count " ++ toString count.toNat ++ " does not match " ++ toString n ++
      " bytes of data"⟩
  | .sealedBuffer =>
    ⟨.invalidInput, "primary buffer is sealed once a payload has been appended"⟩

end IoFailure

end Nfs3
