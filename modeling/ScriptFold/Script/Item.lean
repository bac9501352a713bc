import ScriptFold.Bindings

/-!
# Sequences of script lines

A half of a statement is a sequence of items. An item is a script line, a group of alternatives,
or a reference to a template that stands for the lines it was folded from.
-/

namespace ScriptFold

/-- A folded run of lines: the template's name and the values of its placeholders. -/
structure Reference where
  name : String
  fields : Bindings
deriving DecidableEq

/-- One entry of a sequence. -/
inductive Item
  | line (text : String)
  | group (members : List Item)
  | ref (reference : Reference)

namespace Item

mutual

/-- Equality of items is decided entry by entry. -/
def decEq : (a b : Item) → Decidable (a = b)
  | .line s, .line t =>
    if h : s = t then isTrue (h ▸ rfl) else isFalse fun e => h (Item.line.inj e)
  | .group s, .group t =>
    match decEqList s t with
    | isTrue h => isTrue (h ▸ rfl)
    | isFalse h => isFalse fun e => h (Item.group.inj e)
  | .ref s, .ref t =>
    if h : s = t then isTrue (h ▸ rfl) else isFalse fun e => h (Item.ref.inj e)
  | .line _, .group _ | .line _, .ref _ | .group _, .line _ | .group _, .ref _
  | .ref _, .line _ | .ref _, .group _ => isFalse nofun

/-- Equality of sequences is decided item by item. -/
def decEqList : (a b : List Item) → Decidable (a = b)
  | [], [] => isTrue rfl
  | [], _ :: _ | _ :: _, [] => isFalse nofun
  | a :: as, b :: bs =>
    match decEq a b, decEqList as bs with
    | isTrue h, isTrue hs => isTrue (h ▸ hs ▸ rfl)
    | isFalse h, _ => isFalse fun e => h (List.cons.inj e).1
    | _, isFalse hs => isFalse fun e => hs (List.cons.inj e).2

end

instance : DecidableEq Item := decEq

instance : Inhabited Item := ⟨.line ""⟩

end Item

end ScriptFold
