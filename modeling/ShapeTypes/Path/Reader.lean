import ShapeTypes.Path
import ShapeTypes.Rdf.Collection
import ShapeTypes.Shape.Vocabulary

/-!
# Reading property paths

* `readPath` — the path that a term of a graph encodes, with nesting up to a given depth;
* `PathError` — why there is none; `tooDeep` tells that the depth was used up, and a greater one may do.
-/

namespace ShapeTypes

open Rdf

/-- Why a term is read as no path. -/
inductive PathError where
  | notNode (term : Term)
  | unknownStructure
  | list (cause : CollectionError)
  | tooDeep
  deriving DecidableEq

/-- The members of the list at a term, as part of a path. -/
def pathMembers (g : Graph) (head : Term) : Except PathError (List Term) :=
  (g.collection head).mapError .list

/-- The path that a term encodes. A blank node is an alternative, an inverse, a repetition or a list of at
least two members, looked for in this order. -/
def readPath (g : Graph) : Nat → Term → Except PathError Path
  | 0, _ => .error .tooDeep
  | _ + 1, .node (.iri i) => .ok (.predicate i)
  | _ + 1, .literal l => .error (.notNode (.literal l))
  | depth + 1, .node (.blank b) =>
    let object? (name : String) : Option Term := g.object? (.blank b) (sh name)
    match object? "alternativePath" with
    | some head => do return .alternative (← (← pathMembers g head).mapM (readPath g depth))
    | none =>
      match object? "inversePath" with
      | some t => .inverse <$> readPath g depth t
      | none =>
        match object? "zeroOrMorePath" with
        | some t => .zeroOrMore <$> readPath g depth t
        | none =>
          match object? "oneOrMorePath" with
          | some t => .oneOrMore <$> readPath g depth t
          | none =>
            match object? "zeroOrOnePath" with
            | some t => .zeroOrOne <$> readPath g depth t
            | none =>
              if (g.object? (.blank b) rdfFirst).isNone then .error .unknownStructure
              else do
                let members ← (← pathMembers g (.node (.blank b))).mapM (readPath g depth)
                if members.length < 2 then throw .unknownStructure
                return .sequence members

/-- A depth that suffices for every path that ends: it nests along different subjects, of which there are no
more than triples. -/
def Rdf.Graph.pathDepth (g : Graph) : Nat := g.size + 1

end ShapeTypes
