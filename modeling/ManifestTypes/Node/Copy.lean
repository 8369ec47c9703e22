import ManifestTypes.Node.Basic

/-!
# Copies of nodes

A node that is handed on part by part. Tags are handed on by their names, so a second exclamation
mark before a name is lost. Where this makes two keys of a mapping one there is no copy.
-/

namespace ManifestTypes.Node

mutual

def copy? : Node → Option Node
  | .sequence elements => do
    let copies ← copyAll? elements
    some (.sequence copies)
  | .mapping entries => do
    let copies ← copyEach? entries
    if (Keyed.ofList copies).length = copies.length then some (.mapping copies) else none
  | .tagged tag node => do
    let inner ← copy? node
    some (.tagged (String.ofList (tagName tag)) inner)
  | scalar => some scalar

def copyAll? : List Node → Option (List Node)
  | [] => some []
  | node :: rest => do
    let copy ← copy? node
    let copies ← copyAll? rest
    some (copy :: copies)

def copyEach? : List (Node × Node) → Option (List (Node × Node))
  | [] => some []
  | (key, node) :: rest => do
    let keyCopy ← copy? key
    let copy ← copy? node
    let copies ← copyEach? rest
    some ((keyCopy, copy) :: copies)

end

end ManifestTypes.Node
