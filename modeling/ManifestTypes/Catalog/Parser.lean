import ManifestTypes.Catalog.Basic
import ManifestTypes.Catalog.Word
import ManifestTypes.Mismatch

/-!
# Reading import catalogs

```
catalog := '{' [ entry (',' entry)* ] '}'
entry   := word '=' word [ hash ]
```

The first word of an entry is its name and the second its path. A hash is a word that starts with
`sha256:`. It pins the import and is not kept.
-/

namespace ManifestTypes.Catalog

inductive State where
  | start
  | opened
  | separated (entries : Catalog)
  | named (entries : Catalog) (name : String)
  | assigned (entries : Catalog) (name : String)
  | located (entries : Catalog)
  | pinned (entries : Catalog)
  | complete (entries : Catalog)

def isHash (text : String) : Bool :=
  "sha256:".toList.isPrefixOf text.toList

namespace State

def expected : State → Expectation
  | .start => .mark '{'
  | .opened => .typeName
  | .separated _ => .typeName
  | .named _ _ => .mark '='
  | .assigned _ _ => .importPath
  | .located _ => .mark '}'
  | .pinned _ => .mark '}'
  | .complete _ => .endOfInput

def step : State → Word → Option State
  | .start, .symbol '{' => some .opened
  | .opened, .symbol '}' => some (.complete empty)
  | .opened, .word name => some (.named empty name)
  | .separated entries, .word name => some (.named entries name)
  | .named entries name, .symbol '=' => some (.assigned entries name)
  | .assigned entries name, .word path => some (.located (entries.insert name path))
  | .located entries, .word text => if isHash text then some (.pinned entries) else none
  | .located entries, .symbol ',' => some (.separated entries)
  | .located entries, .symbol '}' => some (.complete entries)
  | .pinned entries, .symbol ',' => some (.separated entries)
  | .pinned entries, .symbol '}' => some (.complete entries)
  | _, _ => none

def run (s : State) : List Placed → Except Mismatch State
  | [] => .ok s
  | p :: rest =>
    match s.step p.word with
    | some next => next.run rest
    | none => .error ⟨s.expected, some p.word.text, p.position⟩

end State

/-- The catalog that a text holds, and nothing else. -/
def parse (source : String) : Except Mismatch Catalog := do
  match ← State.start.run (words 0 source.toList) with
  | .complete entries => .ok entries
  | s => .error ⟨s.expected, none, source.utf8ByteSize⟩

end ManifestTypes.Catalog
