import Mathlib.Algebra.Group.Nat.Defs
import StagedBuild.Proofs.Json.Scan
import StagedBuild.Proofs.Json.Syntax

/-!
# Reading back what was written

The text of a value spells a tree, and the value is read back as the value of that tree. So it is
read back from its text in either layout, as long as its text can hold it: its numbers are in the
range in which every whole number is exact, and its containers are not nested too deeply.

## Main definitions

* `Json.Faithful`: a value that its text can hold, with a bound on the nesting.
* `Json.tree`: the tree that the text of a value spells.

## Main results

* `Json.value_tree`: the value of that tree is the value itself.
* `Json.parse?_compact`, `Json.parse?_pretty`: a value is read back from its texts.
-/

namespace StagedBuild

-- ════════════════════════════════════════════════════════════════════════
-- Numbers
-- ════════════════════════════════════════════════════════════════════════

namespace Numeral

theorem le_foldl (digits : List Nat) (n : Nat) :
    n ≤ digits.foldl (fun n d => n * 10 + d) n := by
  induction digits generalizing n with
  | nil => exact Nat.le_refl n
  | cons d rest ih => exact Nat.le_trans (by omega) (ih (n * 10 + d))

/-- No digit is dropped from a number below the limit. -/
theorem joinWhole_eq {digits : List Nat} {n : Nat}
    (h : digits.foldl (fun n d => n * 10 + d) n ≤ significandLimit) :
    joinWhole n digits = (digits.foldl (fun n d => n * 10 + d) n, 0) := by
  induction digits generalizing n with
  | nil => rfl
  | cons d rest ih =>
    have hle : n * 10 + d ≤ significandLimit := Nat.le_trans (le_foldl rest _) h
    rw [joinWhole, if_pos hle]
    exact ih h

theorem round53_of_lt {n : Nat} (h : n < 2 ^ 53) : round53 n = n := by
  have hbits : n.log2 + 1 ≤ 53 := by
    by_cases hn : n = 0
    · subst hn
      decide
    · have := (Nat.log2_lt hn).2 h
      omega
  simp [round53, hbits]

theorem inRange_digitsOf {n : Nat} (h : n < 2 ^ 53) :
    inRange { whole := Json.digitsOf n } = true := by
  have hvalue : (Json.digitsOf n).foldl (fun n d => n * 10 + d) 0 = n := Json.ofDigits_digitsOf n
  have hlimit : n ≤ significandLimit := by
    have : 2 ^ 53 ≤ significandLimit := by decide
    omega
  have hwhole : joinWhole 0 (Json.digitsOf n) = (n, 0) := by
    rw [joinWhole_eq (by rw [hvalue]; exact hlimit), hvalue]
  have hbound : n < infinityBound := Nat.lt_trans h (by decide +kernel)
  simp [inRange, hwhole, joinFraction, scale, round53_of_lt h, round53_of_lt, hbound]

theorem natural?_digitsOf (n : Nat) : natural? { whole := Json.digitsOf n } = some n := by
  simp [natural?, Json.ofDigits_digitsOf]

end Numeral

-- ════════════════════════════════════════════════════════════════════════
-- Values
-- ════════════════════════════════════════════════════════════════════════

namespace Json

/-- The text of the value can hold it, and at most `depth` containers enclose one another in it. -/
inductive Faithful : Nat → Json → Prop
  | null {depth : Nat} : Faithful depth .null
  | bool {depth : Nat} (b : Bool) : Faithful depth (.bool b)
  | natural {depth n : Nat} (h : n < 2 ^ 53) : Faithful depth (.natural n)
  | string {depth : Nat} (s : String) : Faithful depth (.string s)
  | array {depth : Nat} {items : List Json} (h : ∀ item ∈ items, Faithful depth item) :
    Faithful (depth + 1) (.array items)
  | object {depth : Nat} {members : List (String × Json)}
    (h : ∀ member ∈ members, Faithful depth member.2) : Faithful (depth + 1) (.object members)

theorem Faithful.mono {depth other : Nat} {json : Json} (h : Faithful depth json)
    (hle : depth ≤ other) : Faithful other json := by
  induction h generalizing other with
  | null => exact .null
  | bool b => exact .bool b
  | natural hn => exact .natural hn
  | string s => exact .string s
  | array _ ih =>
    obtain ⟨other, rfl⟩ := Nat.exists_eq_add_of_le' (Nat.le_of_add_left_le hle)
    exact .array fun item hmem => ih item hmem (by omega)
  | object _ ih =>
    obtain ⟨other, rfl⟩ := Nat.exists_eq_add_of_le' (Nat.le_of_add_left_le hle)
    exact .object fun member hmem => ih member hmem (by omega)

theorem Faithful.isReadable {depth : Nat} {json : Json} (h : Faithful depth json) :
    json.isReadable = true := by
  induction h with
  | array _ ih => rwa [Json.isReadable, isReadableList_eq_all, List.all_eq_true]
  | object _ ih => rwa [Json.isReadable, isReadableMembers_eq_all, List.all_eq_true]
  | _ => rfl

mutual

/-- The tree that the tokens of a value spell. -/
def tree : Json → JsonSyntax
  | .array items => .array (itemTrees items)
  | .object members => .object (memberTrees members)
  | .bool b => .bool b
  | .natural n => .number { whole := digitsOf n }
  | .string s => .string (some s)
  | _ => .null

def itemTrees : List Json → List JsonSyntax
  | [] => []
  | item :: rest => tree item :: itemTrees rest

def memberTrees : List (String × Json) → List (Option String × JsonSyntax)
  | [] => []
  | (name, value) :: rest => (some name, tree value) :: memberTrees rest

end

mutual

theorem tokens_tree : ∀ json : Json, json.tree.tokens = json.tokens
  | .array items => by rw [tree, JsonSyntax.tokens, itemTokens_itemTrees items, tokens]
  | .object members => by rw [tree, JsonSyntax.tokens, memberTokens_memberTrees members, tokens]
  | .null => rfl
  | .bool _ => rfl
  | .natural _ => rfl
  | .otherNumber => rfl
  | .string _ => rfl
  | .unreadable => rfl

theorem itemTokens_itemTrees : ∀ items : List Json,
    JsonSyntax.itemTokens (itemTrees items) = itemTokens items
  | [] => rfl
  | [item] => tokens_tree item
  | item :: next :: rest => by
    show item.tree.tokens ++ .comma :: JsonSyntax.itemTokens (itemTrees (next :: rest)) =
      item.tokens ++ .comma :: itemTokens (next :: rest)
    rw [tokens_tree item, itemTokens_itemTrees (next :: rest)]

theorem memberTokens_memberTrees : ∀ members : List (String × Json),
    JsonSyntax.memberTokens (memberTrees members) = memberTokens members
  | [] => rfl
  | [(name, value)] => by
    show .string (some name) :: .colon :: value.tree.tokens = memberTokens [(name, value)]
    rw [tokens_tree value, memberTokens]
  | (name, value) :: next :: rest => by
    show .string (some name) :: .colon :: (value.tree.tokens ++ .comma ::
        JsonSyntax.memberTokens (memberTrees (next :: rest))) =
      .string (some name) :: .colon :: (value.tokens ++ .comma :: memberTokens (next :: rest))
    rw [tokens_tree value, memberTokens_memberTrees (next :: rest)]

end

theorem itemValues_itemTrees {depth : Nat} {items : List Json}
    (h : ∀ item ∈ items, item.tree.value depth = item) :
    JsonSyntax.itemValues depth (itemTrees items) = items := by
  induction items with
  | nil => rfl
  | cons item rest ih =>
    rw [itemTrees, JsonSyntax.itemValues, h item List.mem_cons_self,
      ih fun other hmem => h other (List.mem_cons_of_mem item hmem)]

theorem memberValues?_memberTrees {depth : Nat} {members : List (String × Json)}
    (h : ∀ member ∈ members, member.2.tree.value depth = member.2) :
    JsonSyntax.memberValues? depth (memberTrees members) = some members := by
  induction members with
  | nil => rfl
  | cons member rest ih =>
    rw [memberTrees, JsonSyntax.memberValues?, h member List.mem_cons_self,
      ih fun other hmem => h other (List.mem_cons_of_mem member hmem)]
    rfl

/-- The tree of a value has that value, wherever there is room for the containers in it. -/
theorem value_tree {depth : Nat} {json : Json} (h : Faithful depth json) (enclosing : Nat)
    (hroom : depth + enclosing ≤ nestingLimit) : json.tree.value enclosing = json := by
  induction h generalizing enclosing with
  | null => rfl
  | bool b => rfl
  | natural hn =>
    simp [tree, JsonSyntax.value, Numeral.inRange_digitsOf hn, Numeral.natural?_digitsOf]
  | string s => rfl
  | array _ ih =>
    have hitems := itemValues_itemTrees fun item hmem => ih item hmem (enclosing + 1) (by omega)
    rw [tree, JsonSyntax.value, hitems, JsonReader.sealed, if_pos (by omega)]
  | object _ ih =>
    have hmembers := memberValues?_memberTrees fun member hmem =>
      ih member hmem (enclosing + 1) (by omega)
    rw [tree, JsonSyntax.value, hmembers, JsonSyntax.objectValue, JsonReader.sealed,
      if_pos (by omega)]

theorem spells_compact (json : Json) : JsonSyntax.Spells json.compact json.tree := by
  rw [JsonSyntax.Spells, scanJson_compact, tokens_tree]

theorem spells_pretty (json : Json) : JsonSyntax.Spells json.pretty json.tree := by
  rw [JsonSyntax.Spells, scanJson_pretty, tokens_tree]

theorem parse?_compact {depth : Nat} {json : Json} (h : Faithful depth json)
    (hdepth : depth ≤ nestingLimit) : parse? json.compact = some json := by
  rw [JsonSyntax.parse?_of_spells json.spells_compact, value_tree h 0 hdepth]

theorem parse?_pretty {depth : Nat} {json : Json} (h : Faithful depth json)
    (hdepth : depth ≤ nestingLimit) : parse? json.pretty = some json := by
  rw [JsonSyntax.parse?_of_spells json.spells_pretty, value_tree h 0 hdepth]

end Json
end StagedBuild
