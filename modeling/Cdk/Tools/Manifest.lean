import Cdk.Library.Bounded
import Cdk.Library.BoundedText
import Cdk.Link.Secure

/-!
# The pinned manifest of tools and models

What the gateway offers is pinned as the operator approved it.  An entry is
looked up by its kind, the first one counting, and a tool may be called while
its entry was last confirmed in the current session.
-/

namespace Cdk.Tools

open ByteFormat BoundedText Link

def isAsciiGraphic (byte : UInt8) : Bool := 33 ≤ byte && byte ≤ 126

/-- Endpoints in a listing: at most 64 visible characters. -/
def validEndpoint (text : Bytes) : Bool := text.length ≤ 64 && text.all isAsciiGraphic

abbrev Endpoint := Name validEndpoint

/-- One entry of the gateway's listing. -/
structure Listed where
  kind : Str 32
  flags : UInt8
  endpoint : Endpoint
  deriving DecidableEq

/-- A tool or model as the operator last approved it. -/
structure Pinned where
  kind : Str 32
  flags : UInt8
  endpoint : Endpoint
  /-- The session in which it was last confirmed. -/
  epoch : UInt32
  deriving DecidableEq

abbrev Manifest := BoundedVec Pinned 32

variable (manifest : Manifest) (kind : Bytes)

def Manifest.pinned : Option Pinned :=
  manifest.items.find? fun pinned => pinned.kind.text == kind

/-- Approved gateway flags of a tool object, zero if it is not pinned. -/
def pinnedFlags : UInt8 :=
  (Manifest.pinned manifest kind).elim 0 Pinned.flags

/-- Approved endpoint of a tool object. -/
def pinnedEndpoint : Option Endpoint :=
  (manifest.items.find? fun pinned =>
    pinned.kind.text == kind && !pinned.endpoint.text.isEmpty).map Pinned.endpoint

/-- The listing of the kind is approved and was confirmed in the current
session. -/
def verified (epoch : UInt32) (kind : Bytes) : Bool :=
  manifest.items.any fun pinned =>
    pinned.kind.text == kind && pinned.epoch == epoch && epoch != 0

end Cdk.Tools
