/-
# Values that nobody wants

A structure may have fields that its reader does not know. Their values are
skipped, but they have to be well formed and may not lie too deep: a group takes
up one level and each of its members another one inside it.

Key definitions: `Item.isReadable`, `Item.levels`, `Place`, `Place.canSkip`.
-/
import ShadeNet.Document.Item
import ShadeNet.Document.Numeral

namespace ShadeNet.Document

/-! ### Well-formed items -/

/-- Words that are values and therefore no names of groups. -/
def valueWords : List String :=
  ["true", "false", "None", "inf", "inff32", "inff64", "NaN", "NaNf32", "NaNf64"]

/-- Whether a group may have a name. -/
def isGroupName : Option String → Bool
  | none => true
  | some name => !valueWords.contains name

mutual

/-- Whether an item stands for some value. If wrappings are merged, an optional
value may have nothing in its brackets. -/
def Item.isReadable (x : Extensions) : Item → Bool
  | .single (.word spelling) => spelling != presentWord
  | .single (.numeral spelling) => isNumeral spelling
  | .single _ => true
  | .group name bracket members =>
    isGroupName name && Item.fits bracket members && membersReadable x bracket members
  | .optional look members =>
    if x.mergedWrapped && members.isEmpty then true
    else Item.fitsLook look members && membersReadable x .round members
  | .present value => x.bareOptional && value.isReadable x
  | .pair _ _ => false
  | .gap => false

/-- Whether the members of a group stand for values. The keys of round brackets
are names, the keys of others are values. -/
def membersReadable (x : Extensions) (bracket : Bracket) : List Item → Bool
  | [] => true
  | .pair key value :: rest =>
    (bracket = .round || key.isReadable x) && value.isReadable x && membersReadable x bracket rest
  | item :: rest => item.isReadable x && membersReadable x bracket rest

end

/-! ### Levels -/

mutual

/-- The levels that an item takes up. An optional value takes up one level around
it; merged members also take up the levels of their group. -/
def Item.levels : Item → Nat
  | .single _ => 0
  | .group _ _ members => levelsInside members + 1
  | .optional look members =>
    if members.isEmpty then 1
    else if look = .one then levelsInside members
    else levelsInside members + 2
  | .pair key value => max key.levels value.levels
  | .present value => value.levels + 1
  | .gap => 0

/-- The levels that the members of a group take up. -/
def levelsInside : List Item → Nat
  | [] => 0
  | item :: rest => max (item.levels + 1) (levelsInside rest)

end

/-- The most levels that a document may have. -/
def mostLevels : Nat := 128

/-! ### Places -/

/-- Where an item stands. -/
structure Place where
  /-- The liberties of the document. -/
  extensions : Extensions
  /-- The levels that an item may take up here. -/
  room : Nat := mostLevels

namespace Place

/-- A place so many levels deeper. -/
def deeper (p : Place) (levels : Nat) : Place := { p with room := p.room - levels }

/-- Whether an item that nobody wants may stand at a place. -/
def canSkip (p : Place) (item : Item) : Bool :=
  item.isReadable p.extensions && item.levels ≤ p.room

end Place

end ShadeNet.Document
