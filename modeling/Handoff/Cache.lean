import Handoff.Keyed
import Handoff.Options
import Handoff.Scene.Printer
/-!
# The result cache

A request is known by a key: its scope, the version, the node's id, a digest of the node, the options
in full and a digest of the custom code. The cache holds one value for each key and counts how often
a look-up found something and how often it did not.
-/
namespace Handoff

abbrev Digest := String → UInt64

/-- The digest in use unless another is given: each byte is mixed in and multiplied by a prime. -/
def Digest.standard : Digest := fun text =>
  text.toUTF8.foldl (fun h b => (h ^^^ b.toUInt64) * 0x100000001B3) 0xCBF29CE484222325

/-- What tells one request from another. -/
structure CacheKey where
  scope : String
  version : String
  nodeId : String
  nodeDigest : UInt64
  options : String
  customDigest : UInt64
deriving DecidableEq, Inhabited

namespace CacheKey

/-- A digest as sixteen digits in base 16, in small letters. -/
def hex16 (n : UInt64) : String :=
  let digits := Nat.toDigits 16 n.toNat
  String.ofList (List.replicate (16 - digits.length) '0' ++ digits)

/-- The text of a key, its digests written by `digestText`. -/
def textWith (digestText : UInt64 → String) (k : CacheKey) : String :=
  k.scope ++ ":" ++ k.version ++ ":" ++ k.nodeId ++ ":" ++ digestText k.nodeDigest ++ ":" ++
    k.options ++ ":" ++ digestText k.customDigest

def text (k : CacheKey) : String :=
  k.textWith hex16

/-- The key of a request. -/
def ofRequest (digest : Digest) (scope version : String) (node : Node) (options : Options)
    (custom : CustomCode) : CacheKey where
  scope
  version
  nodeId := node.value.id
  nodeDigest := digest (Node.toJson node).text
  options := options.toJson.text
  customDigest := digest custom.toJson.text

end CacheKey

/-- Values by key, and how often look-ups found one. -/
structure Cache (α : Type) where
  entries : Keyed α := .empty
  hits : Nat := 0
  misses : Nat := 0
deriving Inhabited

namespace Cache

variable {α : Type}

/-- The value at a key, and the cache that has counted the look-up. -/
def lookUp (c : Cache α) (key : String) : Option α × Cache α :=
  match c.entries.get? key with
  | some v => (some v, { c with hits := c.hits + 1 })
  | none => (none, { c with misses := c.misses + 1 })

/-- Sets the value at a key. -/
def set (c : Cache α) (key : String) (v : α) : Cache α :=
  { c with entries := c.entries.insert key v }

/-- Forgets all values; the counts go on. -/
def clear (c : Cache α) : Cache α :=
  { c with entries := .empty }

def size (c : Cache α) : Nat := c.entries.size

def isEmpty (c : Cache α) : Bool := c.size == 0

end Cache
end Handoff
