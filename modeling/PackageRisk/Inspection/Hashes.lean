import PackageRisk.Digest.Sha256
import PackageRisk.Text.Blank
import PackageRisk.Text.Letters

/-!
# Known malware

A set of content hashes that only grows. Blanks around a hash and its letter case do not matter,
and a blank hash is never a member.
-/

namespace PackageRisk

/-- A use of a set of hashes: to look one up or to add one. -/
inductive HashCall where
  | contains (hash : String)
  | add (hash : String)
  deriving DecidableEq, Repr

/-- The hashes that a call adds. -/
def HashCall.added : HashCall → List String
  | contains _ => []
  | add hash => [hash]

@[simp] theorem HashCall.added_contains (hash : String) : (contains hash).added = [] := rfl

@[simp] theorem HashCall.added_add (hash : String) : (add hash).added = [hash] := rfl

/-- Known hashes in their normal form, each once. -/
structure MalwareHashes where
  hashes : List String := []
  deriving DecidableEq, Repr

namespace MalwareHashes

/-- The normal form of a hash: trimmed, in lower case. -/
def normalize (hash : String) : String :=
  Text.lower (Text.trim hash)

/-- The hash is known. -/
def contains (known : MalwareHashes) (hash : String) : Bool :=
  known.hashes.contains (normalize hash)

/-- Adding the hash would make a difference: it is not blank and not known. -/
def isNew (known : MalwareHashes) (hash : String) : Bool :=
  normalize hash != "" && !known.contains hash

/-- Add a hash if it is new. -/
def add (known : MalwareHashes) (hash : String) : MalwareHashes :=
  if known.isNew hash then ⟨known.hashes ++ [normalize hash]⟩ else known

/-- The set of some hashes. -/
def ofList (hashes : List String) : MalwareHashes :=
  hashes.foldl add {}

/-- The number of known hashes. -/
def size (known : MalwareHashes) : Nat :=
  known.hashes.length

/-- The answer to a call and the set after it. An addition is answered by whether it makes a
difference. -/
def call (known : MalwareHashes) : HashCall → Bool × MalwareHashes
  | .contains hash => (known.contains hash, known)
  | .add hash => (known.isNew hash, known.add hash)

/-- The set after some calls. -/
def after (known : MalwareHashes) (calls : List HashCall) : MalwareHashes :=
  calls.foldl (fun known call => (known.call call).2) known

@[simp] theorem call_contains (known : MalwareHashes) (hash : String) :
    known.call (.contains hash) = (known.contains hash, known) := rfl

@[simp] theorem call_add (known : MalwareHashes) (hash : String) :
    known.call (.add hash) = (known.isNew hash, known.add hash) := rfl

@[simp] theorem after_nil (known : MalwareHashes) : known.after [] = known := rfl

@[simp] theorem after_cons (known : MalwareHashes) (call : HashCall) (calls : List HashCall) :
    known.after (call :: calls) = (known.call call).2.after calls := rfl

end MalwareHashes

end PackageRisk
