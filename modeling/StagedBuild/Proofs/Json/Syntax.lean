import StagedBuild.Json.Reader

/-!
# The syntax of JSON texts

What is written in a JSON text, before anything is left out: literals, arrays and objects, with the
items and members in the order in which they are written. Reading a text is finding such a tree that
has the tokens of the text, and the value of the text is the value of the tree.

## Main definitions

* `JsonSyntax`: the trees.
* `JsonSyntax.tokens`: how a tree is written.
* `JsonSyntax.value`: the value of a tree inside some containers.
* `JsonSyntax.Spells`: a text that is written with the tokens of a tree.

## Main results

* `JsonSyntax.run_tokens`: where a value may stand, the tokens of a tree complete its value.
* `JsonSyntax.exists_tokens_of_run`: whatever is read where a value may stand begins with a tree.
* `JsonSyntax.parse?_eq_some_iff`: a text has a value exactly if it spells a tree with that value.
-/

namespace StagedBuild

/-- What stands in a text. A string, also one that names a member, has no text when its escapes
leave a surrogate alone. -/
inductive JsonSyntax where
  | null
  | bool (b : Bool)
  | number (n : Numeral)
  | string (s : Option String)
  | array (items : List JsonSyntax)
  | object (members : List (Option String × JsonSyntax))

namespace JsonSyntax

instance : Inhabited JsonSyntax := ⟨.null⟩

mutual

/-- The tokens of a tree. -/
def tokens : JsonSyntax → List JsonToken
  | .null => [.null]
  | .bool b => [.bool b]
  | .number n => [.number n]
  | .string s => [.string s]
  | .array items => .openBracket :: (itemTokens items ++ [.closeBracket])
  | .object members => .openBrace :: (memberTokens members ++ [.closeBrace])

def itemTokens : List JsonSyntax → List JsonToken
  | [] => []
  | [item] => tokens item
  | item :: rest => tokens item ++ .comma :: itemTokens rest

def memberTokens : List (Option String × JsonSyntax) → List JsonToken
  | [] => []
  | [(name, value)] => .string name :: .colon :: tokens value
  | (name, value) :: rest =>
    .string name :: .colon :: (tokens value ++ .comma :: memberTokens rest)

end

/-- The value of an object inside `depth` containers. One with a name without text has none. -/
def objectValue (depth : Nat) : Option (List (String × Json)) → Json
  | some members => JsonReader.sealed depth (.object members)
  | none => .unreadable

mutual

/-- The value of a tree inside `depth` containers. -/
def value (depth : Nat) : JsonSyntax → Json
  | .null => .null
  | .bool b => .bool b
  | .number n =>
    if n.inRange then (n.natural?.map Json.natural).getD .otherNumber else .unreadable
  | .string (some s) => .string s
  | .string none => .unreadable
  | .array items => JsonReader.sealed depth (.array (itemValues (depth + 1) items))
  | .object members => objectValue depth (memberValues? (depth + 1) members)

def itemValues (depth : Nat) : List JsonSyntax → List Json
  | [] => []
  | item :: rest => value depth item :: itemValues depth rest

/-- The members with their values, if all of their names have a text. -/
def memberValues? (depth : Nat) : List (Option String × JsonSyntax) → Option (List (String × Json))
  | [] => some []
  | (name, item) :: rest =>
    name.bind fun name => (memberValues? depth rest).map fun others =>
      (name, value depth item) :: others

end

theorem itemValues_eq_map (depth : Nat) (items : List JsonSyntax) :
    itemValues depth items = items.map (value depth) := by
  induction items with
  | nil => rfl
  | cons item rest ih => rw [itemValues, ih, List.map_cons]

/-- A member with its value, if its name has a text. -/
def memberValue? (depth : Nat) (member : Option String × JsonSyntax) : Option (String × Json) :=
  member.1.map fun name => (name, member.2.value depth)

theorem memberValues?_eq_mapM (depth : Nat) (members : List (Option String × JsonSyntax)) :
    memberValues? depth members = members.mapM (memberValue? depth) := by
  induction members with
  | nil => rfl
  | cons member rest ih =>
    obtain ⟨name, item⟩ := member
    rw [memberValues?, ih, List.mapM_cons]
    cases name <;> cases rest.mapM (memberValue? depth) <;> rfl

/-- The text is written with the tokens of the tree, with any white space between them. -/
def Spells (text : String) (tree : JsonSyntax) : Prop :=
  scanJson text = some tree.tokens

-- ════════════════════════════════════════════════════════════════════════
-- The tokens of a tree complete its value
-- ════════════════════════════════════════════════════════════════════════

open JsonReader

theorem run_of_step {reader next : JsonReader} {token : JsonToken}
    (h : reader.step token = some next) (rest : List JsonToken) :
    reader.run (token :: rest) = next.run rest := by
  rw [run, h]

theorem run_of_step_eq {reader : JsonReader} {token : JsonToken} {next : Option JsonReader}
    (h : reader.step token = next) (rest : List JsonToken) :
    reader.run (token :: rest) = next.bind fun next => next.run rest := by
  rw [run, h]
  cases next <;> rfl

/-- A tree begins with a token that closes nothing. -/
theorem exists_tokens_eq (tree : JsonSyntax) :
    ∃ token rest, tree.tokens = token :: rest ∧ token ≠ .closeBracket := by
  cases tree with
  | _ => exact ⟨_, _, rfl, JsonToken.noConfusion⟩

theorem exists_itemTokens_eq (item : JsonSyntax) (rest : List JsonSyntax) :
    ∃ token others, itemTokens (item :: rest) = token :: others ∧ token ≠ .closeBracket := by
  obtain ⟨token, others, htokens, hne⟩ := exists_tokens_eq item
  cases rest with
  | nil => exact ⟨token, others, htokens, hne⟩
  | cons next rest =>
    refine ⟨token, others ++ .comma :: itemTokens (next :: rest), ?_, hne⟩
    rw [itemTokens, htokens, List.cons_append]
    simp

theorem exists_memberTokens_eq (member : Option String × JsonSyntax)
    (rest : List (Option String × JsonSyntax)) :
    ∃ others, memberTokens (member :: rest) = .string member.1 :: .colon :: others := by
  cases rest with
  | nil => exact ⟨_, rfl⟩
  | cons next rest => exact ⟨_, rfl⟩

section Machine

variable {stack : List JsonFrame}

theorem run_firstItem {token : JsonToken} (h : token ≠ .closeBracket) (rest : List JsonToken) :
    run ⟨stack, .valueOrClose⟩ (token :: rest) = run ⟨stack, .value⟩ (token :: rest) := by
  simp [run, step, h]

theorem run_firstName {token : JsonToken} (h : token ≠ .closeBrace) (rest : List JsonToken) :
    run ⟨stack, .nameOrClose⟩ (token :: rest) = run ⟨stack, .name⟩ (token :: rest) := by
  simp [run, step, h]

theorem run_name (done : Option (List (String × Json))) (name : Option String)
    (rest : List JsonToken) :
    run ⟨.object done :: stack, .name⟩ (.string name :: .colon :: rest) =
      run ⟨.member done name :: stack, .value⟩ rest := by
  rw [run_of_step rfl]
  exact run_of_step rfl rest

/-- What an object holds after more of its members, last first. -/
def joinMembers (done added : Option (List (String × Json))) : Option (List (String × Json)) :=
  done.bind fun done => added.map fun added => added.reverse ++ done

theorem joinMembers_cons (done : Option (List (String × Json))) (name : Option String) (json : Json)
    (added : Option (List (String × Json))) :
    joinMembers (done.bind fun done => name.map fun name => (name, json) :: done) added =
      joinMembers done (name.bind fun name => added.map fun added => (name, json) :: added) := by
  cases done <;> cases name <;> cases added <;> simp [joinMembers]

theorem closeObject_joinMembers (added : Option (List (String × Json))) :
    closeObject (.object (joinMembers (some []) added) :: stack) =
      complete stack (objectValue stack.length added) := by
  cases added <;> simp [joinMembers, closeObject, objectValue]

end Machine

mutual

/-- The tokens of a tree complete its value, whatever stands behind them. -/
theorem run_tokens : ∀ (tree : JsonSyntax) (stack : List JsonFrame) (rest : List JsonToken),
    run ⟨stack, .value⟩ (tree.tokens ++ rest) =
      (complete stack (tree.value stack.length)).bind fun next => next.run rest
  | .null, _, rest => run_of_step_eq rfl rest
  | .bool _, _, rest => run_of_step_eq rfl rest
  | .number _, _, rest => run_of_step_eq rfl rest
  | .string none, _, rest => run_of_step_eq rfl rest
  | .string (some _), _, rest => run_of_step_eq rfl rest
  | .array [], stack, rest => by
    rw [tokens, List.cons_append, run_of_step rfl]
    exact run_of_step_eq rfl rest
  | .array (item :: items), stack, rest => by
    obtain ⟨token, others, htokens, htoken⟩ := exists_itemTokens_eq item items
    have hclose : step ⟨.array ((itemValues (stack.length + 1) (item :: items)).reverse ++ []) ::
        stack, .commaOrClose⟩ .closeBracket =
          complete stack ((array (item :: items)).value stack.length) := by
      simp [step, closeArray, value]
    rw [tokens, List.cons_append, List.append_assoc, List.singleton_append, run_of_step rfl,
      htokens, List.cons_append, run_firstItem htoken, ← List.cons_append, ← htokens,
      run_itemTokens (item :: items) (List.cons_ne_nil item items) stack [] rest]
    exact run_of_step_eq hclose rest
  | .object [], stack, rest => by
    rw [tokens, List.cons_append, run_of_step rfl]
    exact run_of_step_eq rfl rest
  | .object (member :: members), stack, rest => by
    obtain ⟨others, htokens⟩ := exists_memberTokens_eq member members
    have hclose : step ⟨.object (joinMembers (some [])
        (memberValues? (stack.length + 1) (member :: members))) :: stack, .commaOrClose⟩
          .closeBrace = complete stack ((object (member :: members)).value stack.length) :=
      closeObject_joinMembers _
    rw [tokens, List.cons_append, List.append_assoc, List.singleton_append, run_of_step rfl,
      htokens, List.cons_append, run_firstName (by simp), ← List.cons_append, ← htokens,
      run_memberTokens (member :: members) (List.cons_ne_nil member members) stack (some []) rest]
    exact run_of_step_eq hclose rest

/-- The items of an array are put on it one after the other, down to the bracket. -/
theorem run_itemTokens : ∀ (items : List JsonSyntax), items ≠ [] → ∀ (stack : List JsonFrame)
    (done : List Json) (rest : List JsonToken),
    run ⟨.array done :: stack, .value⟩ (itemTokens items ++ .closeBracket :: rest) =
      run ⟨.array ((itemValues (stack.length + 1) items).reverse ++ done) :: stack, .commaOrClose⟩
        (.closeBracket :: rest)
  | [], hne, _, _, _ => absurd rfl hne
  | [item], _, stack, done, rest => run_tokens item (.array done :: stack) (.closeBracket :: rest)
  | item :: next :: others, _, stack, done, rest => by
    have hitem := run_tokens item (.array done :: stack)
      (.comma :: (itemTokens (next :: others) ++ .closeBracket :: rest))
    have hothers := run_itemTokens (next :: others) (List.cons_ne_nil next others) stack
      (item.value (stack.length + 1) :: done) rest
    rw [itemTokens, List.append_assoc, List.cons_append, hitem, itemValues, List.reverse_cons,
      List.append_assoc]
    · exact hothers
    · simp

theorem run_memberTokens : ∀ (members : List (Option String × JsonSyntax)), members ≠ [] →
    ∀ (stack : List JsonFrame) (done : Option (List (String × Json))) (rest : List JsonToken),
    run ⟨.object done :: stack, .name⟩ (memberTokens members ++ .closeBrace :: rest) =
      run ⟨.object (joinMembers done (memberValues? (stack.length + 1) members)) :: stack,
        .commaOrClose⟩ (.closeBrace :: rest)
  | [], hne, _, _, _ => absurd rfl hne
  | [(name, item)], _, stack, done, rest => by
    have hitem := run_tokens item (.member done name :: stack) (.closeBrace :: rest)
    rw [memberTokens, List.cons_append, List.cons_append, run_name, hitem, memberValues?,
      ← joinMembers_cons]
    simp [complete, memberValues?, joinMembers]
  | (name, item) :: next :: others, _, stack, done, rest => by
    have hitem := run_tokens item (.member done name :: stack)
      (.comma :: (memberTokens (next :: others) ++ .closeBrace :: rest))
    have hothers := run_memberTokens (next :: others) (List.cons_ne_nil next others) stack
      (done.bind fun done => name.map fun name => (name, item.value (stack.length + 1)) :: done) rest
    rw [memberTokens, List.cons_append, List.cons_append, List.append_assoc, List.cons_append,
      run_name, hitem, memberValues?, ← joinMembers_cons]
    · exact hothers
    · simp

end

-- ════════════════════════════════════════════════════════════════════════
-- Whatever is read is a tree
-- ════════════════════════════════════════════════════════════════════════

section Inversion

variable {stack : List JsonFrame} {json : Json} {tokens : List JsonToken}

theorem exists_step_of_run {reader : JsonReader} {token : JsonToken}
    (h : reader.run (token :: tokens) = some json) :
    ∃ next, reader.step token = some next ∧ next.run tokens = some json := by
  rw [run] at h
  split at h
  · cases h
  · next next hstep => exact ⟨next, hstep, h⟩

/-- An item is followed by the bracket or by a comma and another item. -/
theorem run_afterItem {items : List Json}
    (h : run ⟨.array items :: stack, .commaOrClose⟩ tokens = some json) :
    (∃ rest, tokens = .closeBracket :: rest) ∨
    ∃ rest, tokens = .comma :: rest ∧ run ⟨.array items :: stack, .value⟩ rest = some json := by
  cases tokens with
  | nil => cases h
  | cons token rest =>
    obtain ⟨next, hstep, hrun⟩ := exists_step_of_run h
    cases token with
    | closeBracket => exact .inl ⟨rest, rfl⟩
    | comma =>
      obtain rfl := Option.some.inj hstep
      exact .inr ⟨rest, rfl, hrun⟩
    | _ => cases hstep

/-- A member is followed by the brace or by a comma and another member. -/
theorem run_afterMember {members : Option (List (String × Json))}
    (h : run ⟨.object members :: stack, .commaOrClose⟩ tokens = some json) :
    (∃ rest, tokens = .closeBrace :: rest) ∨
    ∃ rest, tokens = .comma :: rest ∧ run ⟨.object members :: stack, .name⟩ rest = some json := by
  cases tokens with
  | nil => cases h
  | cons token rest =>
    obtain ⟨next, hstep, hrun⟩ := exists_step_of_run h
    cases token with
    | closeBrace => exact .inl ⟨rest, rfl⟩
    | comma =>
      obtain rfl := Option.some.inj hstep
      exact .inr ⟨rest, rfl, hrun⟩
    | _ => cases hstep

/-- A member begins with its name and a colon. -/
theorem run_atName {members : Option (List (String × Json))}
    (h : run ⟨.object members :: stack, .name⟩ tokens = some json) :
    ∃ name rest, tokens = .string name :: .colon :: rest ∧
      run ⟨.member members name :: stack, .value⟩ rest = some json := by
  cases tokens with
  | nil => cases h
  | cons token tokens =>
    obtain ⟨next, hstep, hrun⟩ := exists_step_of_run h
    cases token with
    | string name =>
      obtain rfl := Option.some.inj hstep
      cases tokens with
      | nil => cases hrun
      | cons second rest =>
        obtain ⟨next, hcolon, hrun⟩ := exists_step_of_run hrun
        simp only [step] at hcolon
        split at hcolon
        · next heq =>
          subst heq
          obtain rfl := Option.some.inj hcolon
          exact ⟨name, rest, rfl, hrun⟩
        · cases hcolon
    | _ => cases hstep

/-- If the tokens are read where a value may stand, they begin with those of a tree. -/
def BeginsTree (tokens : List JsonToken) : Prop :=
  ∀ stack json, run ⟨stack, .value⟩ tokens = some json →
    ∃ (tree : JsonSyntax) (rest : List JsonToken), tokens = tree.tokens ++ rest

def BeginsItems (tokens : List JsonToken) : Prop :=
  ∀ stack done json, run ⟨.array done :: stack, .value⟩ tokens = some json →
    ∃ items rest, items ≠ [] ∧ tokens = itemTokens items ++ .closeBracket :: rest

def BeginsMembers (tokens : List JsonToken) : Prop :=
  ∀ stack done json, run ⟨.object done :: stack, .name⟩ tokens = some json →
    ∃ members rest, members ≠ [] ∧ tokens = memberTokens members ++ .closeBrace :: rest

theorem beginsItems_of_tree (htree : BeginsTree tokens)
    (hshorter : ∀ other : List JsonToken, other.length < tokens.length → BeginsItems other) :
    BeginsItems tokens := by
  intro stack done json h
  obtain ⟨item, after, rfl⟩ := htree _ _ h
  rw [run_tokens] at h
  obtain ⟨rest, rfl⟩ | ⟨rest, rfl, hrun⟩ := run_afterItem h
  · exact ⟨[item], rest, by simp, rfl⟩
  · have hlength : rest.length < (item.tokens ++ .comma :: rest).length := by
      rw [List.length_append, List.length_cons]
      omega
    obtain ⟨items, others, hne, rfl⟩ := hshorter rest hlength _ _ _ hrun
    refine ⟨item :: items, others, by simp, ?_⟩
    cases items with
    | nil => exact absurd rfl hne
    | cons next items => simp [itemTokens]

theorem beginsMembers_of_shorter
    (htree : ∀ other : List JsonToken, other.length < tokens.length → BeginsTree other)
    (hshorter : ∀ other : List JsonToken, other.length < tokens.length → BeginsMembers other) :
    BeginsMembers tokens := by
  intro stack done json h
  obtain ⟨name, value, rfl, hvalue⟩ := run_atName h
  have hlength : value.length < (.string name :: .colon :: value : List JsonToken).length := by
    rw [List.length_cons, List.length_cons]
    omega
  obtain ⟨item, after, rfl⟩ := htree value hlength _ _ hvalue
  rw [run_tokens] at hvalue
  obtain ⟨rest, rfl⟩ | ⟨rest, rfl, hrun⟩ := run_afterMember hvalue
  · exact ⟨[(name, item)], rest, by simp, rfl⟩
  · have hrest : rest.length < (item.tokens ++ .comma :: rest).length := by
      rw [List.length_append, List.length_cons]
      omega
    obtain ⟨members, others, hne, rfl⟩ := hshorter rest (Nat.lt_trans hrest hlength) _ _ _ hrun
    refine ⟨(name, item) :: members, others, by simp, ?_⟩
    cases members with
    | nil => exact absurd rfl hne
    | cons next members => simp [memberTokens]

theorem beginsTree_of_shorter
    (hitems : ∀ other : List JsonToken, other.length < tokens.length → BeginsItems other)
    (hmembers : ∀ other : List JsonToken, other.length < tokens.length → BeginsMembers other) :
    BeginsTree tokens := by
  intro stack json h
  cases tokens with
  | nil => cases h
  | cons token tokens =>
    obtain ⟨next, hstep, hrun⟩ := exists_step_of_run h
    cases token with
    | null => exact ⟨.null, tokens, rfl⟩
    | bool b => exact ⟨.bool b, tokens, rfl⟩
    | number n => exact ⟨.number n, tokens, rfl⟩
    | string s => exact ⟨.string s, tokens, rfl⟩
    | openBracket =>
      obtain rfl := Option.some.inj hstep
      cases tokens with
      | nil => cases hrun
      | cons first rest =>
        by_cases hclose : first = .closeBracket
        · subst hclose
          exact ⟨.array [], rest, rfl⟩
        · rw [run_firstItem hclose] at hrun
          obtain ⟨items, others, -, heq⟩ := hitems (first :: rest) (by simp) _ _ _ hrun
          exact ⟨.array items, others, by simp [heq, JsonSyntax.tokens]⟩
    | openBrace =>
      obtain rfl := Option.some.inj hstep
      cases tokens with
      | nil => cases hrun
      | cons first rest =>
        by_cases hclose : first = .closeBrace
        · subst hclose
          exact ⟨.object [], rest, rfl⟩
        · rw [run_firstName hclose] at hrun
          obtain ⟨members, others, -, heq⟩ := hmembers (first :: rest) (by simp) _ _ _ hrun
          exact ⟨.object members, others, by simp [heq, JsonSyntax.tokens]⟩
    | _ => cases hstep

theorem begins (tokens : List JsonToken) :
    BeginsTree tokens ∧ BeginsItems tokens ∧ BeginsMembers tokens := by
  induction hlength : tokens.length using Nat.strongRecOn generalizing tokens with
  | ind n ih =>
    subst hlength
    have htree : BeginsTree tokens := beginsTree_of_shorter
      (fun other hother => (ih _ hother other rfl).2.1) fun other hother => (ih _ hother other rfl).2.2
    refine ⟨htree, ?_, ?_⟩
    · exact beginsItems_of_tree htree fun other hother => (ih _ hother other rfl).2.1
    · exact beginsMembers_of_shorter (fun other hother => (ih _ hother other rfl).1)
        fun other hother => (ih _ hother other rfl).2.2

/-- What is read where a value may stand begins with a tree. -/
theorem exists_tokens_of_run (h : run ⟨stack, .value⟩ tokens = some json) :
    ∃ (tree : JsonSyntax) (rest : List JsonToken), tokens = tree.tokens ++ rest :=
  (begins tokens).1 stack json h

end Inversion

-- ════════════════════════════════════════════════════════════════════════
-- Texts
-- ════════════════════════════════════════════════════════════════════════

theorem run_start (tree : JsonSyntax) : start.run tree.tokens = some (tree.value 0) := by
  have hrun := run_tokens tree [] []
  rw [List.append_nil] at hrun
  exact hrun

theorem parse?_of_spells {text : String} {tree : JsonSyntax} (h : Spells text tree) :
    Json.parse? text = some (tree.value 0) := by
  rw [Json.parse?, h, Option.bind_some, run_start]

/-- A text has a value exactly if it spells a tree, and then it is the value of the tree. -/
theorem parse?_eq_some_iff {text : String} {json : Json} :
    Json.parse? text = some json ↔ ∃ tree, Spells text tree ∧ tree.value 0 = json := by
  constructor
  · intro h
    obtain ⟨tokens, hscan, hrun⟩ := Option.bind_eq_some_iff.1 h
    obtain ⟨tree, rest, rfl⟩ := exists_tokens_of_run hrun
    have hvalue : run ⟨[], .nothing (tree.value 0)⟩ rest = some json := by
      rw [← hrun]
      exact (run_tokens tree [] rest).symm
    -- nothing may stand behind the outermost value
    cases rest with
    | nil => exact ⟨tree, by rw [Spells, hscan, List.append_nil], Option.some.inj hvalue⟩
    | cons token rest => cases hvalue
  · rintro ⟨tree, hspells, rfl⟩
    exact parse?_of_spells hspells

end JsonSyntax
end StagedBuild
