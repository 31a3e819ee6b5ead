import Diagram.Proofs.Json.Records

namespace Diagram

namespace Json

/-- An object lists some of the members of another one, in any order and among members with other
keys. What it gives for a member is as `gives` allows. -/
inductive Lists (keep : String → Bool) (gives : String → Json → Json → Prop) : Json → Json → Prop
  | mk {full given others members : List (String × Json)}
      (hg : List.Forall₂ (fun m m' ↦ m'.1 = m.1 ∧ gives m.1 m.2 m'.2) (full.filter (keep ·.1)) given)
      (ho : ∀ m ∈ others, m.1 ∉ full.map Prod.fst) (hm : members.Perm (given ++ others)) :
      Lists keep gives (.record full) (.record members)

def Itself (_ : String) (v w : Json) : Prop := w = v

def Reordered (v w : Json) : Prop :=
  ∃ members members', v = .record members ∧ w = .record members' ∧ members'.Perm members

namespace Lists

variable {keep : String → Bool} {gives : String → Json → Json → Prop}
  {full members : List (String × Json)}

theorem keys_eq {given : List (String × Json)}
    (hg : List.Forall₂ (fun m m' ↦ m'.1 = m.1 ∧ gives m.1 m.2 m'.2) full given) :
    given.map Prod.fst = full.map Prod.fst := by
  induction hg with
  | nil => rfl
  | cons h _ ih => rw [List.map_cons, List.map_cons, h.1, ih]

theorem filter_absent {key : String} (h : key ∉ members.map Prod.fst) :
    members.filter (·.1 ∈ [key]) = [] := by
  simp only [List.filter_eq_nil_iff, List.mem_singleton, decide_eq_true_eq]
  exact fun m hm heq ↦ h (heq ▸ List.mem_map_of_mem hm)

theorem filter_given {given : List (String × Json)}
    (hg : List.Forall₂ (fun m m' ↦ m'.1 = m.1 ∧ gives m.1 m.2 m'.2) full given)
    (hn : (full.map Prod.fst).Nodup) {key : String} {v : Json} (hm : (key, v) ∈ full) :
    ∃ w, given.filter (·.1 ∈ [key]) = [(key, w)] ∧ gives key v w := by
  induction hg with
  | nil => cases hm
  | @cons m m' full given h hrest ih =>
    obtain ⟨hnew, hn⟩ := List.nodup_cons.mp hn
    obtain ⟨hkey, hw⟩ := h
    rcases List.mem_cons.mp hm with rfl | hm
    · obtain ⟨key', w⟩ := m'
      obtain rfl : key' = key := hkey
      refine ⟨w, ?_, hw⟩
      rw [List.filter_cons_of_pos (by simp), filter_absent (keys_eq hrest ▸ hnew)]
    · have hne : m'.1 ≠ key := fun heq ↦ hnew (hkey ▸ heq ▸ List.mem_map_of_mem hm)
      rw [List.filter_cons_of_neg (by simpa using hne)]
      exact ih hn hm

theorem filter_eq (h : Lists keep gives (.record full) (.record members))
    (hn : (full.map Prod.fst).Nodup) {key : String} {v : Json} (hm : (key, v) ∈ full) :
    if keep key then ∃ w, members.filter (·.1 ∈ [key]) = [(key, w)] ∧ gives key v w
    else members.filter (·.1 ∈ [key]) = [] := by
  cases h with
  | @mk _ given others _ hg ho hperm =>
    have hothers : ∀ m ∈ others, decide (m.1 ∈ [key]) = false := by
      intro m hmem
      simp only [List.mem_singleton, decide_eq_false_iff_not]
      exact fun heq ↦ ho m hmem (heq ▸ List.mem_map_of_mem hm)
    have hkept : ((full.filter (keep ·.1)).map Prod.fst).Nodup :=
      hn.sublist (List.filter_sublist.map Prod.fst)
    split
    · next hk =>
      obtain ⟨w, hfilter, hw⟩ := filter_given hg hkept (List.mem_filter.mpr ⟨hm, hk⟩)
      exact ⟨w, (filter_eq_of_perm hperm hothers (hfilter ▸ Nat.le_refl 1)).trans hfilter, hw⟩
    · next hk =>
      have habsent : key ∉ given.map Prod.fst := by
        rw [keys_eq hg]
        intro hin
        obtain ⟨m, hmem, rfl⟩ := List.mem_map.mp hin
        exact hk (List.mem_filter.mp hmem).2
      have hfilter := filter_absent habsent
      exact (filter_eq_of_perm hperm hothers (hfilter ▸ Nat.zero_le 1)).trans hfilter

theorem refl (h : ∀ m ∈ full, gives m.1 m.2 m.2) :
    Lists (fun _ ↦ true) gives (.record full) (.record full) := by
  have hg : List.Forall₂ (fun m m' ↦ m'.1 = m.1 ∧ gives m.1 m.2 m'.2)
      (full.filter fun _ ↦ true) full := by
    rw [List.filter_true]
    exact List.forall₂_same.mpr fun m hm ↦ ⟨rfl, h m hm⟩
  have ho : ∀ m ∈ ([] : List (String × Json)), m.1 ∉ full.map Prod.fst := by simp
  exact .mk hg ho (by rw [List.append_nil])

theorem exists_members {v w : Json} (h : Lists keep gives v w) : ∃ members, w = .record members := by
  cases h
  exact ⟨_, rfl⟩

end Lists

end Json

def Field.copy {ρ : Type} (f : Field ρ) (x y : ρ) : ρ := f.set y (f.get x)

namespace RecordShape

variable {ρ : Type} {r : RecordShape ρ} {f : Field ρ} {fields : List (Field ρ)}

/-- The record with the value of the base for each field that is not kept. -/
def restrict (r : RecordShape ρ) (keep : String → Bool) (x : ρ) : ρ :=
  (r.fields.filter (keep ·.name)).foldr (·.copy x) r.base

theorem get_foldr_of_apart (h : ∀ g ∈ fields, f.Apart g) (x base : ρ) :
    f.get (fields.foldr (·.copy x) base) = f.get base := by
  induction fields with
  | nil => rfl
  | cons g fields ih =>
    obtain ⟨hg, h⟩ := List.forall_mem_cons.mp h
    rw [List.foldr_cons, Field.copy, hg.2.2, ih h]

theorem get_foldr_of_mem (ha : fields.Pairwise Field.Apart) (hf : f ∈ fields) (x base : ρ) :
    f.get (fields.foldr (·.copy x) base) = f.get x := by
  induction fields with
  | nil => cases hf
  | cons g fields ih =>
    obtain ⟨hg, ha⟩ := List.pairwise_cons.mp ha
    rw [List.foldr_cons, Field.copy]
    rcases List.mem_cons.mp hf with rfl | hf
    · exact f.get_set _ _
    · rw [(hg f hf).2.1, ih ha hf]

theorem get_restrict (hf : f ∈ r.fields) (keep : String → Bool) (x : ρ) :
    f.get (r.restrict keep x) = if keep f.name then f.get x else f.get r.base := by
  split
  · next hk =>
    exact get_foldr_of_mem (r.apart.filter _) (List.mem_filter.mpr ⟨hf, hk⟩) x r.base
  · next hk =>
    refine get_foldr_of_apart (fun g hg ↦ ?_) x r.base
    obtain ⟨hg, hkeep⟩ := List.mem_filter.mp hg
    exact apart_of_ne hf hg fun heq ↦ hk (heq ▸ hkeep)

theorem restrict_all (x : ρ) : r.restrict (fun _ ↦ true) x = x :=
  r.ext _ _ fun _ hf ↦ get_restrict hf _ x

theorem exists_get (ha : fields.Pairwise Field.Apart) (base : ρ) {P : (f : Field ρ) → f.Value → Prop}
    (h : ∀ f ∈ fields, ∃ v, P f v) : ∃ x : ρ, ∀ f ∈ fields, P f (f.get x) := by
  induction fields with
  | nil => exact ⟨base, nofun⟩
  | cons f fields ih =>
    obtain ⟨hf, ha⟩ := List.pairwise_cons.mp ha
    obtain ⟨⟨v, hv⟩, hrest⟩ := List.forall_mem_cons.mp h
    obtain ⟨x, hx⟩ := ih ha hrest
    refine ⟨f.set x v, List.forall_mem_cons.mpr ⟨(f.get_set x v).symm ▸ hv, fun g hg ↦ ?_⟩⟩
    rw [(hf g hg).2.1]
    exact hx g hg

/-- No field has a second name, none has to be given, and every value of it is written. -/
def Plain (r : RecordShape ρ) : Prop :=
  ∀ f ∈ r.fields, f.aliases = [] ∧ f.required = false ∧ ∀ v, f.hides v = false

theorem Plain.members_eq (h : r.Plain) (x : ρ) :
    r.members x = r.fields.map fun f ↦ (f.name, f.codec.write (f.get x)) := by
  have hall : ∀ f ∈ r.fields, (!f.hides (f.get x)) = true := fun f hf ↦ by
    rw [(h f hf).2.2]
    rfl
  rw [members, List.filter_eq_self.mpr hall]

theorem nodup_names (r : RecordShape ρ) : (r.fields.map Field.name).Nodup := by
  rw [List.Nodup, List.pairwise_map]
  refine r.apart.imp fun {f g} ha heq ↦ ha.1 f.name List.mem_cons_self ?_
  rw [heq]
  exact List.mem_cons_self

end RecordShape

/-- A value is read from what is given for it, or is the base if that is not kept. -/
def Codec.Takes {β : Type} (c : Codec β) (kept : Bool) (given : Json → Prop) (base x : β) : Prop :=
  if kept then ∃ w, given w ∧ w.skipFault = none ∧ c.read w = .ok x else x = base

theorem Codec.Takes.rel {β : Type} {c : Codec β} {kept : Bool} {given : Json → Prop} {base x y : β}
    {R : β → β → Prop} (h : c.Takes kept given base y) (hR : R base base)
    (hread : ∀ w, given w → w.skipFault = none → ∃ v, c.read w = .ok v ∧ R v x) :
    R y (if kept then x else base) := by
  cases kept with
  | false =>
    obtain rfl : y = base := h
    exact hR
  | true =>
    obtain ⟨w, hw, hs, hy⟩ : ∃ w, given w ∧ w.skipFault = none ∧ c.read w = .ok y := h
    obtain ⟨v, hv, hx⟩ := hread w hw hs
    obtain rfl : v = y := Except.ok.inj (hv.symm.trans hy)
    exact hx

theorem Codec.Takes.eq {β : Type} {c : Codec β} {kept : Bool} {given : Json → Prop} {base x y : β}
    (h : c.Takes kept given base y)
    (hread : ∀ w, given w → w.skipFault = none → c.read w = .ok x) :
    y = if kept then x else base :=
  h.rel (R := Eq) rfl fun w hw hs ↦ ⟨x, hread w hw hs, rfl⟩

namespace JsonLayer.Conforms

variable {layer : JsonLayer} {ρ : Type} {r : RecordShape ρ} {keep : String → Bool}
  {gives : String → Json → Json → Prop} {x : ρ} {j : Json}

/-- A listing of a record is read as a record, if what it may give for a field is read. -/
theorem read_lists (hl : layer.Conforms) (hr : r.Plain)
    (h : Json.Lists keep gives ((layer.record r).write x) j) (hs : j.skipFault = none)
    (hread : ∀ f ∈ r.fields, ∀ w, gives f.name (f.codec.write (f.get x)) w → w.skipFault = none →
      ∃ v, f.codec.read w = .ok v) :
    ∃ y, (layer.record r).read j = .ok y ∧ ∀ f ∈ r.fields,
      f.codec.Takes (keep f.name) (gives f.name (f.codec.write (f.get x))) (f.get r.base)
        (f.get y) := by
  obtain ⟨members, rfl⟩ := h.exists_members
  rw [hl.write_record, hr.members_eq] at h
  have hskip := Json.skipFault_record.mp hs
  have hkeys : ((r.fields.map fun f ↦ (f.name, f.codec.write (f.get x))).map Prod.fst).Nodup := by
    rw [List.map_map]
    exact r.nodup_names
  let P (f : Field ρ) (v : f.Value) : Prop :=
    ((∃ m, members.filter (·.1 ∈ f.names) = [m] ∧ f.codec.read m.2 = .ok v) ∨
      members.filter (·.1 ∈ f.names) = [] ∧ v = f.get r.base) ∧
    f.codec.Takes (keep f.name) (gives f.name (f.codec.write (f.get x))) (f.get r.base) v
  have hfield : ∀ f ∈ r.fields, ∃ v, P f v := by
    intro f hf
    have hnames : f.names = [f.name] := congrArg (f.name :: ·) (hr f hf).1
    have hfilter := h.filter_eq hkeys (List.mem_map_of_mem hf)
    rw [← hnames] at hfilter
    split at hfilter
    · next hk =>
      obtain ⟨w, hw, hg⟩ := hfilter
      have hws : w.skipFault = none :=
        hskip (f.name, w) (List.mem_of_mem_filter (hw ▸ List.mem_singleton_self _))
      obtain ⟨v, hv⟩ := hread f hf w hg hws
      refine ⟨v, .inl ⟨_, hw, hv⟩, ?_⟩
      rw [Codec.Takes, if_pos hk]
      exact ⟨w, hg, hws, hv⟩
    · next hk => exact ⟨f.get r.base, .inr ⟨hfilter, rfl⟩, by rw [Codec.Takes, if_neg hk]⟩
  obtain ⟨y, hy⟩ := RecordShape.exists_get r.apart r.base hfield
  refine ⟨y, (hl.read_object r).mpr ⟨rfl, fun {f} hf ↦ ?_, fun hm _ ↦ hskip _ hm⟩,
    fun f hf ↦ (hy f hf).2⟩
  exact (hy f hf).1.imp_right fun h ↦ ⟨h.1, (hr f hf).2.1, h.2⟩

/-- A listing of a record that gives its fields as they are written is read as the record with the
base for the fields that are not kept. -/
theorem read_lists_itself (hl : layer.Conforms) (hr : r.Plain)
    (hk : ∀ f ∈ r.fields, layer.Keeps f.codec (f.get x))
    (h : Json.Lists keep Json.Itself ((layer.record r).write x) j) (hs : j.skipFault = none) :
    (layer.record r).read j = .ok (r.restrict keep x) := by
  have hread : ∀ f ∈ r.fields, ∀ w, Json.Itself f.name (f.codec.write (f.get x)) w →
      w.skipFault = none → f.codec.read w = .ok (f.get x) := by
    rintro f hf w rfl -
    exact (hk f hf).1
  obtain ⟨y, hy, hfields⟩ := hl.read_lists hr h hs fun f hf w hw hws ↦ ⟨_, hread f hf w hw hws⟩
  have heq : y = r.restrict keep x := r.ext _ _ fun f hf ↦ by
    rw [RecordShape.get_restrict hf]
    exact (hfields f hf).eq (hread f hf)
  rw [hy, heq]

theorem keeps_record (hl : layer.Conforms) (hr : r.Plain)
    (h : ∀ f ∈ r.fields, layer.Keeps f.codec (f.get x)) : layer.Keeps (layer.record r) x := by
  have hwrite : (layer.record r).write x =
      .record (r.fields.map fun f ↦ (f.name, f.codec.write (f.get x))) := by
    rw [hl.write_record, hr.members_eq]
  have husable : ((layer.record r).write x).Usable layer.accepts := by
    rw [hwrite]
    exact Json.sound_record.mpr (List.forall_mem_map.mpr fun f hf ↦ (h f hf).2)
  have hlists : Json.Lists (fun _ ↦ true) Json.Itself ((layer.record r).write x)
      ((layer.record r).write x) := by
    rw [hwrite]
    exact .refl fun _ _ ↦ rfl
  have hread := hl.read_lists_itself hr h hlists (hl.writes_text husable).skipFault
  exact ⟨hread.trans (congrArg Except.ok (r.restrict_all x)), husable⟩

end JsonLayer.Conforms

end Diagram
