import Diagram.Proofs.Json.Conforming
import Mathlib.Data.List.Perm.Basic

namespace Diagram

namespace Json

theorem skipItems_eq_none {items : List Json} :
    skipItems items none = none ↔ ∀ j ∈ items, j.skipFault = none := by
  induction items with
  | nil => simp [skipItems]
  | cons j items ih => simp [skipItems, Option.or_eq_none_iff, ih]

theorem skipMembers_eq_none {members : List (String × Json)} :
    skipMembers members none = none ↔ ∀ m ∈ members, m.2.skipFault = none := by
  induction members with
  | nil => simp [skipMembers]
  | cons m members ih => simp [skipMembers, Option.or_eq_none_iff, ih]

@[simp]
theorem skipFault_list {items : List Json} :
    (list items).skipFault = none ↔ ∀ j ∈ items, j.skipFault = none := skipItems_eq_none

@[simp]
theorem skipFault_record {members : List (String × Json)} :
    (record members).skipFault = none ↔ ∀ m ∈ members, m.2.skipFault = none :=
  skipMembers_eq_none

end Json

/-- A field of a record as a text may give it: under any of its names, by any of the values that
write it, and perhaps not at all. -/
structure FieldForm where
  names : List String
  Writes : Json → Prop
  omissible : Prop

inductive Gives : List FieldForm → List (String × Json) → Prop
  | nil : Gives [] []
  | given {f : FieldForm} {fields : List FieldForm} {key : String} {j : Json}
      {members : List (String × Json)} (hk : key ∈ f.names) (hj : f.Writes j)
      (h : Gives fields members) : Gives (f :: fields) ((key, j) :: members)
  | omitted {f : FieldForm} {fields : List FieldForm} {members : List (String × Json)}
      (ho : f.omissible) (h : Gives fields members) : Gives (f :: fields) members

/-- The items that give the fields of a record. Only fields at the end can be left out. -/
inductive GivesItems : List FieldForm → List Json → Prop
  | rest {fields : List FieldForm} (ho : ∀ f ∈ fields, f.omissible) : GivesItems fields []
  | given {f : FieldForm} {fields : List FieldForm} {j : Json} {items : List Json} (hj : f.Writes j)
      (h : GivesItems fields items) : GivesItems (f :: fields) (j :: items)

/-- The presentations of a record: an object with its fields in any order and with members of other
names among them, or the array of its fields. -/
inductive Presents (fields : List FieldForm) : Json → Prop
  | object {given others members : List (String × Json)} (hg : Gives fields given)
      (ho : ∀ m ∈ others, ∀ f ∈ fields, m.1 ∉ f.names) (hm : members.Perm (given ++ others)) :
      Presents fields (.record members)
  | array {items : List Json} (h : GivesItems fields items) : Presents fields (.list items)

theorem Presents.of_gives {fields : List FieldForm} {members : List (String × Json)}
    (h : Gives fields members) : Presents fields (.record members) := by
  have ho : ∀ m ∈ ([] : List (String × Json)), ∀ f ∈ fields, m.1 ∉ f.names := by simp
  have hm : members.Perm (members ++ []) := by rw [List.append_nil]
  exact .object h ho hm

def ListsWith {β : Type} (writes : β → Json → Prop) (xs : List β) (j : Json) : Prop :=
  ∃ items, j = .list items ∧ List.Forall₂ writes xs items

theorem ListsWith.read {layer : JsonLayer} (hl : layer.Conforms) {β : Type} {c : Codec β}
    {writes : β → Json → Prop} {xs : List β} {j : Json} (h : ListsWith writes xs j)
    (hs : j.skipFault = none) (hi : ∀ x i, writes x i → i.skipFault = none → c.read i = .ok x) :
    (layer.list c).read j = .ok xs := by
  obtain ⟨items, rfl, h⟩ := h
  rw [Json.skipFault_list] at hs
  refine (hl.read_list c).mpr ⟨rfl, ?_⟩
  induction h with
  | nil => exact .nil
  | cons hx _ ih =>
    obtain ⟨hj, hs⟩ := List.forall_mem_cons.mp hs
    exact .cons (hi _ _ hx hj) (ih hs)

theorem listsWith_map {β : Type} {writes : β → Json → Prop} {xs : List β} {f : β → Json}
    (h : ∀ x ∈ xs, writes x (f x)) : ListsWith writes xs (.list (xs.map f)) :=
  ⟨xs.map f, rfl, List.forall₂_map_right_iff.mpr (List.forall₂_same.mpr h)⟩

def Twice (names : List String) (j : Json) : Prop :=
  ∃ members cut a b, j = .object members cut ∧ [a, b].Sublist members ∧ a.1 ∈ names ∧ b.1 ∈ names

/-- A value stands in another one as the field of these names, which is the `i`th of its record. -/
inductive HasField (names : List String) (i : Nat) : Json → Json → Prop
  | member {members : List (String × Json)} {cut : Option Obstacle} {key : String} {v : Json}
      (hk : key ∈ names) (hv : (key, v) ∈ members) : HasField names i (.object members cut) v
  | item {items : List Json} {cut : Option Obstacle} {v : Json} (hv : items[i]? = some v) :
      HasField names i (.array items cut) v

/-- Under the names of each field stands one value that writes it, or none where it can be left out.
-/
def Gathers (fields : List FieldForm) (members : List (String × Json)) : Prop :=
  ∀ f ∈ fields, (∃ m, members.filter (·.1 ∈ f.names) = [m] ∧ f.Writes m.2) ∨
    members.filter (·.1 ∈ f.names) = [] ∧ f.omissible

theorem Gives.exists_form {fields : List FieldForm} {members : List (String × Json)}
    (h : Gives fields members) {m : String × Json} (hm : m ∈ members) :
    ∃ f ∈ fields, m.1 ∈ f.names ∧ f.Writes m.2 := by
  induction h with
  | nil => cases hm
  | @given f _ _ _ _ hk hj _ ih =>
    rcases List.mem_cons.mp hm with rfl | hm
    · exact ⟨f, by simp, hk, hj⟩
    · obtain ⟨g, hg, hmem⟩ := ih hm
      exact ⟨g, by simp [hg], hmem⟩
  | omitted _ _ ih =>
    obtain ⟨g, hg, hmem⟩ := ih hm
    exact ⟨g, by simp [hg], hmem⟩

theorem Gives.gathers {fields : List FieldForm} {members : List (String × Json)}
    (h : Gives fields members) (ha : fields.Pairwise fun f g ↦ f.names.Disjoint g.names) :
    Gathers fields members := by
  induction h with
  | nil => exact nofun
  | @given f fields key j members hk hj h ih =>
    obtain ⟨hf, ha⟩ := List.pairwise_cons.mp ha
    have hrest : members.filter (·.1 ∈ f.names) = [] := by
      simp only [List.filter_eq_nil_iff, decide_eq_true_eq]
      intro m hm hin
      obtain ⟨g, hg, hmem, -⟩ := h.exists_form hm
      exact hf g hg hin hmem
    intro g hg
    rcases List.mem_cons.mp hg with rfl | hg
    · exact .inl ⟨(key, j), by simp [hk, hrest], hj⟩
    · have hother : key ∉ g.names := fun hin ↦ hf g hg hk hin
      simpa [hother] using ih ha g hg
  | @omitted f fields members ho h ih =>
    obtain ⟨hf, ha⟩ := List.pairwise_cons.mp ha
    intro g hg
    rcases List.mem_cons.mp hg with rfl | hg
    · refine .inr ⟨?_, ho⟩
      simp only [List.filter_eq_nil_iff, decide_eq_true_eq]
      intro m hm hin
      obtain ⟨k, hk, hmem, -⟩ := h.exists_form hm
      exact hf k hk hin hmem
    · exact ih ha g hg

/-- Of members under some names there is at most one, wherever others stand among them. -/
theorem filter_eq_of_perm {given others members : List (String × Json)}
    {p : String × Json → Bool} (hm : members.Perm (given ++ others))
    (ho : ∀ m ∈ others, p m = false) (hl : (given.filter p).length ≤ 1) :
    members.filter p = given.filter p := by
  have hothers : others.filter p = [] := by simpa [List.filter_eq_nil_iff] using ho
  have hfilter := hm.filter p
  rw [List.filter_append, hothers, List.append_nil] at hfilter
  match hg : given.filter p, hl with
  | [], _ => exact (hg ▸ hfilter).eq_nil
  | [m], _ => exact List.perm_singleton.mp (hg ▸ hfilter)

theorem Gathers.length_le {fields : List FieldForm} {given : List (String × Json)}
    (h : Gathers fields given) {f : FieldForm} (hf : f ∈ fields) :
    (given.filter (·.1 ∈ f.names)).length ≤ 1 := by
  rcases h f hf with ⟨m, hm, -⟩ | ⟨hm, -⟩ <;> rw [hm] <;> simp

theorem Gathers.perm {fields : List FieldForm} {given others members : List (String × Json)}
    (h : Gathers fields given) (ho : ∀ m ∈ others, ∀ f ∈ fields, m.1 ∉ f.names)
    (hm : members.Perm (given ++ others)) : Gathers fields members := by
  intro f hf
  rw [filter_eq_of_perm hm (fun m hmem ↦ by simpa using ho m hmem f hf) (h.length_le hf)]
  exact h f hf

theorem GivesItems.gives {fields : List FieldForm} {items : List Json} {keys : List String}
    (h : GivesItems fields items) (hk : List.Forall₂ (fun key f ↦ key ∈ f.names) keys fields) :
    Gives fields (keys.zip items) := by
  induction h generalizing keys with
  | @rest fields ho =>
    rw [List.zip_nil_right]
    clear hk
    induction fields with
    | nil => exact .nil
    | cons f fields ih => exact .omitted (ho f (by simp)) (ih fun g hg ↦ ho g (by simp [hg]))
  | given hj _ ih =>
    cases hk with
    | cons hkey hk => exact .given hkey hj (ih hk)

theorem GivesItems.length_le {fields : List FieldForm} {items : List Json}
    (h : GivesItems fields items) : items.length ≤ fields.length := by
  induction h with
  | rest _ => exact Nat.zero_le _
  | given _ _ ih => simpa using ih

section Reading

variable {ρ : Type} {r : RecordShape ρ} {x : ρ} {forms : List FieldForm}
  {members : List (String × Json)} {j : Json}

/-- The values that write a field are read as its value in the record, and it is left out only where
it is as in the base. -/
structure Suits (r : RecordShape ρ) (x : ρ) (form : FieldForm) (f : Field ρ) : Prop where
  names : form.names = f.names
  read (j : Json) : form.Writes j → j.skipFault = none → f.codec.read j = .ok (f.get x)
  omissible : form.omissible → f.required = false ∧ f.get x = f.get r.base

theorem names_eq_of_suits {fields : List (Field ρ)} (h : List.Forall₂ (Suits r x) forms fields) :
    forms.map FieldForm.names = fields.map Field.names := by
  induction h with
  | nil => rfl
  | cons h _ ih => rw [List.map_cons, List.map_cons, h.names, ih]

theorem exists_form {fields : List (Field ρ)} (h : List.Forall₂ (Suits r x) forms fields) {f : Field ρ}
    (hf : f ∈ fields) : ∃ form ∈ forms, Suits r x form f := by
  induction h with
  | nil => cases hf
  | @cons form _ _ _ h _ ih =>
    rcases List.mem_cons.mp hf with rfl | hf
    · exact ⟨form, by simp, h⟩
    · obtain ⟨form', hform, hsuits⟩ := ih hf
      exact ⟨form', by simp [hform], hsuits⟩

theorem apart_of_suits (h : List.Forall₂ (Suits r x) forms r.fields) :
    forms.Pairwise fun f g ↦ f.names.Disjoint g.names := by
  rw [← List.pairwise_map (f := FieldForm.names) (R := List.Disjoint), names_eq_of_suits h,
    List.pairwise_map]
  exact r.apart.imp fun ha ↦ ha.1

theorem Gathers.means (h : Gathers forms members) (hf : List.Forall₂ (Suits r x) forms r.fields)
    (hm : ∀ m ∈ members, m.2.skipFault = none) : r.Means members x where
  field {f} hmem := by
    obtain ⟨form, hform, hsuits⟩ := exists_form hf hmem
    rw [← hsuits.names]
    rcases h form hform with ⟨m, hfilter, hw⟩ | ⟨hfilter, ho⟩
    · have hin : m ∈ members := List.mem_of_mem_filter (hfilter ▸ List.mem_singleton_self m)
      exact .inl ⟨m, hfilter, hsuits.read m.2 hw (hm m hin)⟩
    · exact .inr ⟨hfilter, hsuits.omissible ho⟩
  other hmem _ := hm _ hmem

namespace JsonLayer.Conforms

variable {layer : JsonLayer}

/-- Every presentation of a record is read as it. -/
theorem read_presents (hl : layer.Conforms) (hf : List.Forall₂ (Suits r x) forms r.fields)
    (hj : Presents forms j) (hs : j.skipFault = none) : (layer.record r).read j = .ok x := by
  have ha := apart_of_suits hf
  cases hj with
  | object hg ho hm =>
    exact (hl.read_object r).mpr
      ⟨rfl, ((hg.gathers ha).perm ho hm).means hf (Json.skipFault_record.mp hs)⟩
  | array hi =>
    have hk : List.Forall₂ (fun key form ↦ key ∈ form.names) (r.fields.map Field.name) forms := by
      rw [List.forall₂_map_left_iff]
      exact hf.flip.imp fun f form h ↦ h.names ▸ List.mem_cons_self
    have hm : ∀ m ∈ r.named _, m.2.skipFault = none := fun m hm ↦
      Json.skipFault_list.mp hs m.2 (List.of_mem_zip hm).2
    exact (hl.read_array r).mpr ⟨rfl, hf.length_eq ▸ hi.length_le, ((hi.gives hk).gathers ha).means hf hm⟩

/-- Members that give the tag and the fields of a tagged value are read as it, if all of them but the
tag can be taken in. -/
theorem read_gathers (hl : layer.Conforms) {σ : Type} {t : TaggedShape σ} {y : σ}
    (hf : List.Forall₂ (Suits (t.split y).1.shape (t.split y).2) forms (t.split y).1.shape.fields)
    (hg : Gathers (⟨[t.tagName], (· = .string (t.split y).1.tag), False⟩ :: forms) members)
    (hn : ∀ form ∈ forms, t.tagName ∉ form.names) (hm : ∀ m ∈ members, m.2.skipFault = none)
    (ht : ∀ m ∈ members, m.1 ≠ t.tagName → m.2.takeFault (layer.maxDepth - 1) = none) :
    (layer.tagged t).read (.record members) = .ok y := by
  have htag : ∃ m, members.filter (·.1 = t.tagName) = [m] ∧ m.2 = .string (t.split y).1.tag := by
    simpa using hg _ List.mem_cons_self
  have hcontent : Gathers forms (members.filter (·.1 ≠ t.tagName)) := by
    intro form hform
    have hfilter : (members.filter (·.1 ≠ t.tagName)).filter (·.1 ∈ form.names) =
        members.filter (·.1 ∈ form.names) := by
      rw [List.filter_filter]
      refine List.filter_congr fun m _ ↦ ?_
      by_cases hm : m.1 = t.tagName
      · simp [hm, hn form hform]
      · simp [hm]
    rw [hfilter]
    exact hg form (List.mem_cons_of_mem _ hform)
  exact (hl.read_tagged t).mpr ⟨rfl, _, t.split_mem y, htag, ht, _,
    hcontent.means hf fun m hmem ↦ hm m (List.mem_of_mem_filter hmem), t.make_split y⟩

theorem reads_field (hl : layer.Conforms) (hj : (layer.record r).read j = .ok x) {i : Nat}
    {f : Field ρ} (hf : r.fields[i]? = some f) {v : Json} (hv : HasField f.names i j v) :
    ∃ y, f.codec.read v = .ok y := by
  have hmem : f ∈ r.fields := List.mem_of_getElem? hf
  cases hv with
  | member hk hm => exact ((hl.read_object r).mp hj).2.exists_read hmem hm hk
  | @item items cut v hitem =>
    have hin : (f.name, v) ∈ r.named items :=
      List.mem_of_getElem? (List.getElem?_zip_eq_some.mpr ⟨by simp [hf], hitem⟩)
    exact ((hl.read_array r).mp hj).2.2.exists_read hmem hin List.mem_cons_self

theorem not_twice (hl : layer.Conforms) (hj : (layer.record r).read j = .ok x) {f : Field ρ}
    (hf : f ∈ r.fields) : ¬ Twice f.names j := by
  rintro ⟨members, cut, a, b, rfl, hsub, ha, hb⟩
  have hlen := ((hl.read_object r).mp hj).2.length_le hf
  have htwo := (hsub.filter (·.1 ∈ f.names)).length_le
  simp only [ha, hb, decide_true, List.filter_cons_of_pos, List.filter_nil, List.length_cons] at htwo
  omega

theorem exists_item (hl : layer.Conforms) {β : Type} {c : Codec β} {items : List Json}
    {cut : Option Obstacle} {xs : List β} (h : (layer.list c).read (.array items cut) = .ok xs)
    {i : Json} (hi : i ∈ items) : ∃ x, c.read i = .ok x := by
  obtain ⟨-, hall⟩ := (hl.read_list c).mp h
  clear h
  induction hall with
  | nil => cases hi
  | cons hx _ ih =>
    rcases List.mem_cons.mp hi with rfl | hi
    · exact ⟨_, hx⟩
    · exact ih hi

end JsonLayer.Conforms

end Reading

end Diagram
