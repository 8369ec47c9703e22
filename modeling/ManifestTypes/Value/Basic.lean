import ManifestTypes.Keyed

/-!
# Values

The trees that manifests are made of. Keys of an object are texts, and its members keep their
order.
-/

namespace ManifestTypes

inductive Value where
  | null
  | boolean (b : Bool)
  | integer (n : Int64)
  | decimal (x : Float)
  | string (s : String)
  | list (elements : List Value)
  | object (members : List (String × Value))

namespace Value

def string? : Value → Option String
  | .string s => some s
  | _ => none

def elements? : Value → Option (List Value)
  | .list elements => some elements
  | _ => none

def members? : Value → Option (Keyed String Value)
  | .object members => some members
  | _ => none

def get? (v : Value) (key : String) : Option Value :=
  v.members?.bind (Keyed.get? · key)

def getString? (v : Value) (key : String) : Option String :=
  (v.get? key).bind string?

def getMembers? (v : Value) (key : String) : Option (Keyed String Value) :=
  (v.get? key).bind members?

def replace? (v : Value) (key : String) (member : Value) : Option Value := do
  let members ← v.members?
  let _ ← Keyed.get? members key
  pure (.object (Keyed.modify members key fun _ => member))

/-- An object of the pairs. Of several pairs with one key the last gives the value and the first
the place. -/
def ofPairs (pairs : List (String × Value)) : Value :=
  .object (Keyed.ofList pairs)

mutual

/-- Whether two values agree. The order of members is not looked at, floating-point numbers are
compared as numbers, and an integer agrees with no floating-point number. -/
def agrees : Value → Value → Bool
  | .null, .null => true
  | .boolean a, .boolean b => a == b
  | .integer a, .integer b => a == b
  | .decimal a, .decimal b => a == b
  | .string a, .string b => a == b
  | .list as, .list bs => agreesAll as bs
  | .object as, .object bs => as.length == bs.length && agreesEach as bs
  | _, _ => false

def agreesAll : List Value → List Value → Bool
  | [], [] => true
  | a :: as, b :: bs => agrees a b && agreesAll as bs
  | _, _ => false

def agreesEach : List (String × Value) → Keyed String Value → Bool
  | [], _ => true
  | (key, a) :: as, bs => (bs.get? key).any (agrees a) && agreesEach as bs

end

end Value

end ManifestTypes
