import StagedBuild.Proofs.Collections
import StagedBuild.Proofs.Json.Rearrangement

/-!
# Readers that find the same after a change

A reader that looks for a shape does not see the changes that the shape allows. Readers of words and
flags do not, because no change touches what they accept; readers of lists, maps and records do not,
because the readers of their parts do not.

## Main definitions

* `Json.Respects`: the property of a reader.
* `Fields.Agree`: the fields of a record before and after a change.

## Main results

* `Json.respects_of_words`, `Json.Respects.list`, `Json.Respects.map`, `Json.Respects.option`.
* `Json.respects_record`: a record is read alike when it is built alike from fields that agree.
* `Json.splitTag?_rel`: a change of options leaves their tag and changes the other members alike.
-/

namespace StagedBuild

namespace Json

variable {α β : Type} {shape : JsonShape} {old new : Json}

/-- The reader finds the same before and after a change that the shape allows. -/
def Respects (shape : JsonShape) (read : Json → Option α) : Prop :=
  ∀ old new, Step shape old new → read old = read new

theorem Respects.steps {read : Json → Option α} (hread : Respects shape read)
    (h : Steps shape old new) : read old = read new := by
  rcases h with rfl | hstep
  · rfl
  · exact hread old new hstep

-- ════════════════════════════════════════════════════════════════════════
-- Words and flags
-- ════════════════════════════════════════════════════════════════════════

/-- `null` or an empty object. -/
def isVoid : Json → Bool
  | .null | .object [] => true
  | _ => false

/-- A literal, or an object that holds at most one member, with `null` or an empty object. -/
def isWord : Json → Bool
  | .object members => decide (members.length ≤ 1) && members.all fun member => member.2.isVoid
  | .array _ => false
  | _ => true

theorem eq_of_perm_of_length_le {γ : Type} {xs ys : List γ} (h : xs.Perm ys) (hle : xs.length ≤ 1) :
    xs = ys := by
  match xs, hle with
  | [], _ => exact h.nil_eq
  | [x], _ => exact h.singleton_eq

/-- A change that does something neither begins nor ends with such a value. -/
theorem Step.isVoid_eq_false (h : Step .plain old new) :
    old = new ∨ (old.isVoid = false ∧ new.isVoid = false) := by
  cases h with
  | @reorder _ members others hperm _ =>
    cases members with
    | nil => exact .inl (by rw [hperm.nil_eq])
    | cons member rest =>
      cases others with
      | nil => simp at hperm
      | cons other others => exact .inr ⟨rfl, rfl⟩
  | add hname => exact hname.elim
  | @member _ before _ _ _ _ _ => cases before <;> exact .inr ⟨rfl, rfl⟩
  | item _ => exact .inr ⟨rfl, rfl⟩

/-- Nor does it begin or end with a word. -/
theorem Step.isWord_eq_false (h : Step .plain old new) :
    old = new ∨ (old.isWord = false ∧ new.isWord = false) := by
  cases h with
  | @reorder _ members others hperm _ =>
    by_cases hle : members.length ≤ 1
    · exact .inl (by rw [eq_of_perm_of_length_le hperm hle])
    · have hle' : ¬ others.length ≤ 1 := hperm.length_eq ▸ hle
      exact .inr ⟨by simp [isWord, hle], by simp [isWord, hle']⟩
  | add hname => exact hname.elim
  | member h =>
    obtain rfl | ⟨hold, hnew⟩ := h.isVoid_eq_false
    · exact .inl rfl
    · exact .inr ⟨by simp [isWord, hold], by simp [isWord, hnew]⟩
  | item _ => exact .inr ⟨rfl, rfl⟩

/-- A reader that accepts words only does not see a change. -/
theorem respects_of_words {read : Json → Option α}
    (h : ∀ json, json.isWord = false → read json = none) : Respects .plain read := by
  intro old new hstep
  obtain rfl | ⟨hold, hnew⟩ := hstep.isWord_eq_false
  · rfl
  · rw [h old hold, h new hnew]

theorem respects_string? : Respects .plain string? :=
  respects_of_words fun json h => by
    cases json with
    | string s => cases h
    | _ => rfl

theorem respects_bool? : Respects .plain bool? :=
  respects_of_words fun json h => by
    cases json with
    | bool b => cases h
    | _ => rfl

theorem respects_word? : Respects .plain word? :=
  respects_of_words fun json h => by
    cases json with
    | natural n => cases h
    | _ => rfl

theorem keyword?_eq_none {json : Json} (h : json.isWord = false) : json.keyword? = none := by
  unfold keyword?
  split
  · cases h
  · cases h
  · rfl

theorem respects_keyword? {ofName? : String → Option α} :
    Respects .plain fun json => json.keyword?.bind ofName? :=
  respects_of_words fun json h => by rw [keyword?_eq_none h, Option.bind_none]

theorem respects_isReadable {value : α} :
    Respects shape fun json => if json.isReadable then some value else none := by
  intro old new h
  simp only [h.isReadable_eq]

-- ════════════════════════════════════════════════════════════════════════
-- Lists and maps
-- ════════════════════════════════════════════════════════════════════════

namespace Respects

variable {read : Json → Option α}

theorem map_result (hread : Respects shape read) (f : α → β) :
    Respects shape fun json => f <$> read json := by
  intro old new h
  simp only [hread old new h]

theorem option (hread : Respects shape read) : Respects shape (option? read) := by
  intro old new h
  have hvalues := hread old new h
  -- no change is a change of `null`
  cases h <;> exact congrArg (some <$> ·) hvalues

theorem list (hread : Respects shape read) : Respects (.list shape) (listOf? read) := by
  intro old new h
  cases h with
  | reorder => rfl
  | add => rfl
  | member => rfl
  | item h => exact Traversal.mapM_eq_of_middle (hread _ _ h) _ _

/-- The names of a map are those of its members. -/
theorem names_of_mapOf? {members : List (String × Json)} {entries : List (String × α)}
    (h : mapOf? read (.object members) = some entries) : entries.map (·.1) = members.map (·.1) := by
  apply Traversal.map_eq_map_of_mapM h
  intro member entry hentry
  obtain ⟨value, -, rfl⟩ := Option.map_eq_some_iff.1 hentry
  rfl

/-- A map is read alike when it does not matter in which order its members are put into it. -/
theorem map {build : List (String × α) → Option β} {result : Json → Option β}
    (hread : Respects shape read)
    (hresult : ∀ json : Json, result json = (mapOf? read json).bind build)
    (hbuild : ∀ entries others : List (String × α), entries.Perm others →
      (entries.map (·.1)).Nodup → build entries = build others) :
    Respects (.map shape) result := by
  intro old new h
  rw [hresult, hresult]
  cases h with
  | @reorder _ members others hperm hdistinct =>
    have hrel : Option.Rel List.Perm (mapOf? read (.object members)) (mapOf? read (.object others)) :=
      Traversal.mapM_perm hperm
    apply Traversal.bind_eq_of_rel hrel
    intro entries others hentries hentriesPerm
    apply hbuild _ _ hentriesPerm
    rw [names_of_mapOf? hentries]
    exact hdistinct trivial
  | add hname => exact hname.elim
  | @member _ before after name old new h =>
    have hmembers : mapOf? read (.object (before ++ (name, old) :: after)) =
        mapOf? read (.object (before ++ (name, new) :: after)) := by
      apply Traversal.mapM_eq_of_middle
      rw [hread _ _ h]
    rw [hmembers]
  | item => rfl

end Respects

end Json

-- ════════════════════════════════════════════════════════════════════════
-- Records
-- ════════════════════════════════════════════════════════════════════════

namespace Fields

open Json (Steps Respects)

variable {α : Type} {shapes : List (String × JsonShape)} {xs ys : Fields}

/-- The same fields are given, each with the value that it had or with that value after a change. -/
def Agree (shapes : List (String × JsonShape)) (xs ys : Fields) : Prop :=
  ∀ name, Option.Rel (Steps (JsonShape.ofField shapes name)) (xs.lookup name) (ys.lookup name)

theorem agree_of_lookup_eq (h : ∀ name, xs.lookup name = ys.lookup name) : Agree shapes xs ys := by
  intro name
  rw [h name]
  cases ys.lookup name with
  | none => exact .none
  | some value => exact .some (.inl rfl)

namespace Agree

variable {shape : JsonShape} {read : Json → Option α}

theorem lookup (h : Agree shapes xs ys) {name : String} (hshape : shapes.lookup name = some shape) :
    Option.Rel (Steps shape) (xs.lookup name) (ys.lookup name) := by
  have hname := h name
  rwa [JsonShape.ofField, hshape, Option.getD_some] at hname

theorem required (h : Agree shapes xs ys) (name : String) (hshape : shapes.lookup name = some shape)
    (hread : Respects shape read) : xs.required name read = ys.required name read := by
  rw [Fields.required, Fields.required]
  apply Traversal.bind_eq_of_rel (h.lookup hshape)
  intro _ _ _ hsteps
  exact hread.steps hsteps

theorem withDefault (h : Agree shapes xs ys) (name : String) (hshape : shapes.lookup name = some shape)
    (hread : Respects shape read) (default : α) :
    xs.withDefault name default read = ys.withDefault name default read := by
  have hvalues := h.lookup hshape
  rw [Fields.withDefault, Fields.withDefault]
  generalize xs.lookup name = a, ys.lookup name = b at hvalues
  cases hvalues with
  | none => rfl
  | some hsteps => exact hread.steps hsteps

/-- What is made of a value may be the same where the values are not. -/
theorem map_withDefault {β : Type} {f : α → β} (h : Agree shapes xs ys) (name : String)
    (hshape : shapes.lookup name = some shape) (hread : Respects shape fun json => f <$> read json)
    (default : α) :
    f <$> xs.withDefault name default read = f <$> ys.withDefault name default read := by
  have hmap : ∀ fields : Fields, f <$> fields.withDefault name default read =
      fields.withDefault name (f default) fun json => f <$> read json := by
    intro fields
    rw [Fields.withDefault, Fields.withDefault]
    cases fields.lookup name <;> rfl
  rw [hmap, hmap, h.withDefault name hshape hread]

theorem optional (h : Agree shapes xs ys) (name : String) (hshape : shapes.lookup name = some shape)
    (hread : Respects shape read) : xs.optional name read = ys.optional name read :=
  h.withDefault name hshape hread.option none

end Agree

/-- Fields in another order, none of them twice, are the same fields. -/
theorem agree_of_perm (h : xs.Perm ys) (hnodup : (xs.map (·.1)).Nodup) : Agree shapes xs ys :=
  agree_of_lookup_eq (lookup_eq_of_perm h hnodup)

theorem agree_of_member (before after : Fields) {name : String} {old new : Json}
    (h : Steps (JsonShape.ofField shapes name) old new) :
    Agree shapes (before ++ (name, old) :: after) (before ++ (name, new) :: after) := by
  intro other
  rw [List.lookup_append, List.lookup_append, List.lookup_cons, List.lookup_cons]
  cases before.lookup other with
  | some value => exact .some (.inl rfl)
  | none =>
    cases hother : other == name with
    | false => exact agree_of_lookup_eq (fun _ => rfl) other
    | true =>
      obtain rfl := eq_of_beq hother
      exact .some h

/-- The items of an array are given to the names in order, so a change of one item changes the field
at its place. -/
theorem agree_of_item {before after : List Json} {old new : Json}
    (h : Steps (JsonShape.ofPlace shapes before.length) old new) :
    Agree shapes ((shapes.map (·.1)).zip (before ++ old :: after))
      ((shapes.map (·.1)).zip (before ++ new :: after)) := by
  induction shapes generalizing before with
  | nil => exact agree_of_lookup_eq fun _ => rfl
  | cons field shapes ih =>
    obtain ⟨first, shape⟩ := field
    cases before with
    | nil =>
      have hfield : JsonShape.ofField ((first, shape) :: shapes) first = shape := by
        simp [JsonShape.ofField]
      have hchange : Steps (JsonShape.ofField ((first, shape) :: shapes) first) old new := by
        rw [hfield]
        exact h
      exact agree_of_member [] _ hchange
    | cons item before =>
      intro name
      have hrest := ih h name
      rw [JsonShape.ofField, List.map_cons, List.cons_append, List.cons_append, List.zip_cons_cons,
        List.zip_cons_cons, List.lookup_cons, List.lookup_cons, List.lookup_cons]
      cases name == first with
      | true => exact .some (.inl rfl)
      | false => exact hrest

end Fields

namespace Json

variable {α : Type} {old new : Json} {shapes : List (String × JsonShape)}

/-- The members with one of the names. -/
def known (names : List String) (members : List (String × Json)) : Fields :=
  members.filter fun member => names.contains member.1

theorem known_of_mem {names : List String} {name : String} (h : names.contains name = true)
    (before after : List (String × Json)) (value : Json) :
    known names (before ++ (name, value) :: after) =
      known names before ++ (name, value) :: known names after := by
  simp only [known, List.filter_append, List.filter_cons, h, if_true]

theorem known_of_notMem {names : List String} {name : String} (h : names.contains name = false)
    (before after : List (String × Json)) (value : Json) :
    known names (before ++ (name, value) :: after) = known names (before ++ after) := by
  simp only [known, List.filter_append, List.filter_cons, h, Bool.false_eq_true, if_false]

theorem fields?_object_json (names : List String) (members : List (String × Json)) :
    fields? .json names (.object members) =
      if ((known names members).map (·.1)).Nodup then some (known names members) else none := by
  rw [fields?]
  exact if_congr (and_iff_left (.inl rfl)) rfl rfl

theorem fields?_array_json (names : List String) (items : List Json) :
    fields? .json names (.array items) =
      if items.length ≤ names.length then some (names.zip items) else none := by
  simp [fields?]

/-- A change of a record changes the values of its fields, if anything, and not whether it has them. -/
theorem fields?_rel (h : Step (.record shapes) old new) :
    Option.Rel (Fields.Agree shapes) (old.fields? .json (shapes.map (·.1)))
      (new.fields? .json (shapes.map (·.1))) := by
  have hrefl : ∀ fields? : Option Fields, Option.Rel (Fields.Agree shapes) fields? fields? := by
    rintro (_ | fields)
    · exact .none
    · exact .some (Fields.agree_of_lookup_eq fun _ => rfl)
  cases h with
  | @reorder _ members others hperm _ =>
    have hknown : (known (shapes.map (·.1)) members).Perm (known (shapes.map (·.1)) others) :=
      hperm.filter _
    have hnames := (hknown.map (·.1)).nodup_iff
    rw [fields?_object_json, fields?_object_json]
    by_cases hnodup : ((known (shapes.map (·.1)) members).map (·.1)).Nodup
    · rw [if_pos hnodup, if_pos (hnames.1 hnodup)]
      exact .some (Fields.agree_of_perm hknown hnodup)
    · rw [if_neg hnodup, if_neg (mt hnames.2 hnodup)]
      exact .none
  | @add _ before after name value hname _ =>
    have hunknown : (shapes.map (·.1)).contains name = false := by
      rw [← Bool.not_eq_true, List.contains_iff_mem]
      exact hname
    rw [fields?_object_json, fields?_object_json, known_of_notMem hunknown]
    exact hrefl _
  | @member _ before after name old new h =>
    rw [fields?_object_json, fields?_object_json]
    cases hname : (shapes.map (·.1)).contains name with
    | false =>
      rw [known_of_notMem hname, known_of_notMem hname]
      exact hrefl _
    | true =>
      rw [known_of_mem hname, known_of_mem hname]
      simp only [List.map_append, List.map_cons]
      split
      · exact .some (Fields.agree_of_member _ _ (.inr h))
      · exact .none
  | @item _ before after old new h =>
    rw [fields?_array_json, fields?_array_json]
    simp only [List.length_append, List.length_cons]
    split
    · exact .some (Fields.agree_of_item (.inr h))
    · exact .none

/-- A record is read alike when it is built alike from fields that agree. -/
theorem respects_record {read : Json → Option α} {build : Fields → Option α}
    (hread : ∀ json : Json, read json = (json.fields? .json (shapes.map (·.1))).bind build)
    (hbuild : ∀ xs ys, Fields.Agree shapes xs ys → build xs = build ys) :
    Respects (.record shapes) read := by
  intro old new h
  rw [hread, hread]
  apply Traversal.bind_eq_of_rel (fields?_rel h)
  intro xs ys _ hagree
  exact hbuild xs ys hagree

-- ════════════════════════════════════════════════════════════════════════
-- Records with a tag
-- ════════════════════════════════════════════════════════════════════════

/-- What the members `type` hold. -/
def tags (members : List (String × Json)) : List (Option String) :=
  (members.filter fun member => member.1 = "type").map (·.2.string?)

def untagged (members : List (String × Json)) : List (String × Json) :=
  members.filter fun member => member.1 ≠ "type"

/-- A tag counts if there is no other one. -/
def onlyTag? : List (Option String) → Option String
  | [tag] => tag
  | _ => none

theorem onlyTag?_eq_of_perm {first second : List (Option String)} (h : first.Perm second) :
    onlyTag? first = onlyTag? second := by
  by_cases hle : first.length ≤ 1
  · rw [eq_of_perm_of_length_le h hle]
  · have hnone : ∀ {tags : List (Option String)}, ¬ tags.length ≤ 1 → onlyTag? tags = none := by
      intro tags htags
      match tags with
      | [] => simp at htags
      | [tag] => simp at htags
      | _ :: _ :: _ => rfl
    rw [hnone hle, hnone (h.length_eq ▸ hle)]

theorem tag?_eq_onlyTag? (members : List (String × Json)) :
    (object members).tag? = onlyTag? (tags members) := by
  rw [tag?_object, tags]
  generalize (members.filter fun member => member.1 = "type") = found
  match found with
  | [] => rfl
  | [_] => rfl
  | _ :: _ :: _ => rfl

theorem splitTag?_object (members : List (String × Json)) :
    StageOptions.splitTag? (.object members) =
      (object members).tag?.map fun tag => (tag, .object (untagged members)) := by
  rw [tag?, StageOptions.splitTag?]
  split <;> rfl

theorem splitTag?_array (first : Json) (rest : List Json) :
    StageOptions.splitTag? (.array (first :: rest)) =
      first.string?.map fun tag => (tag, .array rest) := by
  cases first <;> rfl

theorem Step.string?_eq_none {shape : JsonShape} (h : Step shape old new) :
    old.string? = none ∧ new.string? = none := by
  cases h <;> exact ⟨rfl, rfl⟩

section Members

variable (before after : List (String × Json)) (value : Json)

theorem tags_of_ne {name : String} (h : name ≠ "type") :
    tags (before ++ (name, value) :: after) = tags (before ++ after) := by
  simp [tags, h]

theorem untagged_of_ne {name : String} (h : name ≠ "type") :
    untagged (before ++ (name, value) :: after) =
      untagged before ++ (name, value) :: untagged after := by
  simp [untagged, h]

theorem tags_of_type :
    tags (before ++ ("type", value) :: after) = tags before ++ value.string? :: tags after := by
  simp [tags]

theorem untagged_of_type :
    untagged (before ++ ("type", value) :: after) = untagged (before ++ after) := by
  simp [untagged]

end Members

section Tagged

variable {variants : List (String × List (String × JsonShape))}

/-- The same tag, and of the rest a change that the fields of the tag allow. -/
def TaggedAlike (variants : List (String × List (String × JsonShape))) (old new : String × Json) :
    Prop :=
  old.1 = new.1 ∧ Steps (.record ((variants.lookup old.1).getD [])) old.2 new.2

theorem splitTag?_object_rel {members others : List (String × Json)}
    (htags : onlyTag? (tags members) = onlyTag? (tags others))
    (hrest : ∀ tag, (object members).tag? = some tag →
      Steps (.record ((variants.lookup tag).getD [])) (.object (untagged members))
        (.object (untagged others))) :
    Option.Rel (TaggedAlike variants) (StageOptions.splitTag? (.object members))
      (StageOptions.splitTag? (.object others)) := by
  rw [splitTag?_object, splitTag?_object, tag?_eq_onlyTag? others, ← htags, ← tag?_eq_onlyTag?]
  cases htag : (object members).tag? with
  | none => exact .none
  | some tag => exact .some ⟨rfl, hrest tag htag⟩

/-- A change of a record with a tag does not change the tag, and it changes the rest like a record
with the fields that the tag stands for. -/
theorem splitTag?_rel (h : Step (.tagged variants) old new) :
    Option.Rel (TaggedAlike variants) (StageOptions.splitTag? old) (StageOptions.splitTag? new) := by
  cases h with
  | @reorder _ members others hperm _ =>
    refine splitTag?_object_rel (onlyTag?_eq_of_perm ((hperm.filter _).map _)) fun tag _ => .inr ?_
    exact .reorder (hperm.filter _) False.elim
  | @add _ before after name value hname hvalue =>
    obtain ⟨hne, hunknown⟩ := hname
    refine splitTag?_object_rel (by rw [tags_of_ne _ _ _ hne]) fun tag htag => .inr ?_
    rw [htag] at hunknown
    rw [untagged_of_ne _ _ _ hne, untagged, List.filter_append]
    exact .add hunknown hvalue
  | @member _ before after name old new h =>
    obtain ⟨hold, hnew⟩ := h.string?_eq_none
    by_cases hname : name = "type"
    · subst hname
      refine splitTag?_object_rel (by rw [tags_of_type, tags_of_type, hold, hnew]) fun _ _ => .inl ?_
      rw [untagged_of_type, untagged_of_type]
    · refine splitTag?_object_rel (by rw [tags_of_ne _ _ _ hname, tags_of_ne _ _ _ hname]) ?_
      intro tag htag
      rw [htag] at h
      rw [untagged_of_ne _ _ _ hname, untagged_of_ne _ _ _ hname]
      exact .inr (.member h)
  | @item _ before after old new h =>
    cases before with
    | nil =>
      obtain ⟨hold, hnew⟩ := h.string?_eq_none
      rw [List.nil_append, List.nil_append, splitTag?_array, splitTag?_array, hold, hnew]
      exact .none
    | cons first before =>
      rw [tag?_array] at h
      rw [List.cons_append, List.cons_append, splitTag?_array, splitTag?_array]
      cases htag : first.string? with
      | none => exact .none
      | some tag =>
        rw [List.cons_append, List.head?_cons, Option.bind_some, htag] at h
        exact .some ⟨rfl, .inr (.item h)⟩

end Tagged

end Json
end StagedBuild
