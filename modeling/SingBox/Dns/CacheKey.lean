import Mathlib.Data.Nat.Pairing
import SingBox.Dns.Accepted

/-! What requests share in the cache. In memory an answer is kept under the whole
key; the file has a name for the key that leaves out the class of the question. -/

namespace SingBox.Dns
open Lib Route List Nat

/-- The characters between the parts of a persistent name. -/
def isMark (ch : Char) : Prop := ch = '\x00' ∨ ch = '\x01'

/-- A tag without marks, and a client subnet that is valid. -/
structure DnsCacheKey.Plain (k : DnsCacheKey) : Prop where
  transportTag : ∀ ch ∈ k.transportTag.toList, ¬ isMark ch
  clientSubnet : ∀ p ∈ k.clientSubnet, p.isValid = true

namespace Client

variable {c : Client}

variable {k k' : DnsCacheKey}

end Client

end SingBox.Dns
