import ManifestTypes.Keyed

/-!
# Document nodes

What a document holds before it is taken as a manifest: any node may be a key, and nodes may bear
tags.
-/

namespace ManifestTypes

/-- Numbers of documents. -/
inductive Number where
  | integer (n : Int)
  | decimal (x : Float)

inductive Node where
  | null
  | boolean (b : Bool)
  | number (n : Number)
  | string (s : String)
  | sequence (elements : List Node)
  | mapping (entries : List (Node × Node))
  | tagged (tag : String) (node : Node)

/-- Whether two numbers are one key. An integer is no floating-point number, NaN is NaN, and the
two zeros are one. -/
def Number.same : Number → Number → Bool
  | .integer a, .integer b => a == b
  | .decimal a, .decimal b => a == b || (a.isNaN && b.isNaN)
  | _, _ => false

/-- The name of a tag, which may be written with an exclamation mark before it. -/
def Node.tagName (tag : String) : List Char :=
  match tag.toList with
  | '!' :: c :: rest => c :: rest
  | cs => cs

namespace Node

mutual

/-- Whether two nodes are one key. The order of entries is not looked at. -/
def same : Node → Node → Bool
  | .null, .null => true
  | .boolean a, .boolean b => a == b
  | .number a, .number b => a.same b
  | .string a, .string b => a == b
  | .sequence as, .sequence bs => sameAll as bs
  | .mapping as, .mapping bs => as.length == bs.length && sameEach as bs
  | .tagged t a, .tagged u b => tagName t == tagName u && same a b
  | _, _ => false

def sameAll : List Node → List Node → Bool
  | [], [] => true
  | a :: as, b :: bs => same a b && sameAll as bs
  | _, _ => false

def sameEach : List (Node × Node) → List (Node × Node) → Bool
  | [], _ => true
  | (k, a) :: as, bs => bs.any (fun p => same k p.1 && same a p.2) && sameEach as bs

end

instance : BEq Node := ⟨fun a b => same a b⟩

/-- A mapping of the pairs. Of several pairs with one key the last gives the value and the first
the place. -/
def ofPairs (pairs : List (Node × Node)) : Node :=
  .mapping (Keyed.ofList pairs)

end Node

end ManifestTypes
