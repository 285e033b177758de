import KernelLink.Json.Shape
import KernelLink.Error
/-!
# Time limits

How long the parts of a conversation may take, in milliseconds, and how much error output is kept.

Main definitions:
* `Timing`, with the presets `Timing.standard`, `Timing.patient` and `Timing.eager`.
* `Timing.validate`: which limits make sense together.
* `Timing.toJson`, `Timing.read`, `Timing.ofJson`: limits as a document.
-/
namespace KernelLink

open Json (Shape Field Mismatch ReadError)

/-- The limits of a conversation. -/
structure Timing where
  /-- How long the greeting may take. -/
  handshakeTimeout : Nat
  /-- How long the reply to one request may take. -/
  responseTimeout : Nat
  /-- How long a reply is still awaited once there is error output. -/
  stderrGrace : Nat
  /-- How long the kernel may take to leave when the link is closed. -/
  shutdownGrace : Nat
  /-- How many bytes of error output are kept. -/
  maxStderrBytes : Nat
  deriving Repr, DecidableEq

namespace Timing

/-- The limits used unless others are given. -/
def standard : Timing := ⟨30000, 30000, 100, 2000, 65536⟩

/-- Wide limits for kernels that load much on slow machines. -/
def patient : Timing := ⟨120000, 300000, 250, 5000, 65536⟩

/-- Narrow limits for kernels near by. -/
def eager : Timing := ⟨5000, 2000, 50, 500, 16384⟩

/-- The first rule that the limits break. The kernel must be given time, the grace must end before
the reply is given up, and some error output must be kept. -/
def validate (t : Timing) : Except LinkError Unit :=
  if t.handshakeTimeout = 0 then
    .error (.configuration "handshake_timeout_ms must be greater than zero")
  else if t.responseTimeout = 0 then
    .error (.configuration "response_timeout_ms must be greater than zero")
  else if t.responseTimeout < t.stderrGrace then
    .error (.configuration "stderr_grace_ms cannot be greater than response_timeout_ms")
  else if t.maxStderrBytes = 0 then
    .error (.configuration "max_stderr_bytes must be greater than zero")
  else .ok ()

/-- The layout of the limits. Each has a standard value that stands in for it. -/
def shape : Shape :=
  ⟨"TimeoutConfig",
    [.defaulted "handshakeTimeoutMs" (Json.checkNatural "u64") (.ofNat standard.handshakeTimeout),
      .defaulted "responseTimeoutMs" (Json.checkNatural "u64") (.ofNat standard.responseTimeout),
      .defaulted "stderrGraceMs" (Json.checkNatural "u64") (.ofNat standard.stderrGrace),
      .defaulted "shutdownGraceMs" (Json.checkNatural "u64") (.ofNat standard.shutdownGrace),
      .defaulted "maxStderrBytes" (Json.checkNatural "usize") (.ofNat standard.maxStderrBytes)]⟩

/-- The limits with the given values. The last alternative is never taken, since the shape has five
fields that hold natural numbers. -/
def ofValues : List Json → Timing
  | [.num (.int h), .num (.int r), .num (.int g), .num (.int s), .num (.int m)] =>
    ⟨h.toNat, r.toNat, g.toNat, s.toNat, m.toNat⟩
  | _ => standard

/-- The limits as a document. -/
def toJson (t : Timing) : Json :=
  shape.toJson
    [.ofNat t.handshakeTimeout, .ofNat t.responseTimeout, .ofNat t.stderrGrace,
      .ofNat t.shutdownGrace, .ofNat t.maxStderrBytes]

/-- The limits in an untyped value. -/
def ofJson (v : Json) : Except Mismatch Timing := (shape.ofJson .value v).map ofValues

/-- The limits in a text. -/
def read (s : List UInt8) : Except ReadError Timing := (shape.readWhole s).map ofValues

end Timing
end KernelLink
