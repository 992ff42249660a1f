import Turnstile.Fault
import Turnstile.Metadata
import Turnstile.Qos

/-!
# Classifiers

A classifier gives a request its service class when it arrives. It is user code and may break
off.
-/

namespace Turnstile

/-- Gives a request its class by its metadata. -/
abbrev Classifier := Metadata → Except Fault Qos

namespace Classifier

/-- The same class for every request. -/
def fixed (qos : Qos) : Classifier := fun _ ↦ .ok qos

/-- The class that the first value of a header names; `fallback` if there is none or it names no
class. -/
def header (name : String) (fallback : Qos) : Classifier := fun m ↦
  match (m.header name).head?.map Qos.parse with
  | some (.ok qos) => .ok qos
  | _ => .ok fallback

end Classifier

end Turnstile
