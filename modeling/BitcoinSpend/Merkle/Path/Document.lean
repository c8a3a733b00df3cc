import BitcoinSpend.Merkle.Path.Basic

/-!
# The document form of Merkle paths

A path is a record of its block height and its levels; an element is a record of
its offset and its marks, in which absent marks are left out.
-/

set_option autoImplicit false

namespace BitcoinSpend.Merkle

/-- A field that is left out when its value is absent. -/
def optionalField {α : Type} (name : String) (encode : α → Json) :
    Option α → List (String × Json)
  | some value => [(name, encode value)]
  | none => []

namespace Element

def toJson (element : Element) : Json :=
  .object ([("offset", .ofNat element.offset.toNat)] ++
    optionalField "hash" Hash32.toJson element.hash ++
    optionalField "txid" .bool element.txid ++
    optionalField "duplicate" .bool element.duplicate)

def ofJson? (json : Json) : Option Element := do
  match ← json.record? ["offset", "hash", "txid", "duplicate"] with
  | [some offset, hash, txid, duplicate] =>
      pure ⟨← offset.uint64?, ← Json.optional? Hash32.ofJson? hash,
        ← Json.optional? Json.bool? txid, ← Json.optional? Json.bool? duplicate⟩
  | _ => none

end Element

namespace Path

def toJson (path : Path) : Json :=
  .object [("blockHeight", .ofNat path.blockHeight.toNat),
    ("path", .array (path.levels.map fun level => .array (level.map Element.toJson)))]

def ofJson? (json : Json) : Option Path := do
  match ← json.record? ["blockHeight", "path"] with
  | [some height, some levels] =>
      pure ⟨← height.uint32?, ← levels.list? (Json.list? Element.ofJson?)⟩
  | _ => none

end Path

end BitcoinSpend.Merkle
