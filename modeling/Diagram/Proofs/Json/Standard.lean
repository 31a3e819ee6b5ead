import Diagram.Json.Standard
import Diagram.Proofs.Failing
import Diagram.Proofs.Json.Conforming
import Diagram.Proofs.Json.Printing
import Diagram.Proofs.Json.Reading
import Mathlib.Data.List.Induction
import Mathlib.Data.List.Nodup

namespace Diagram

theorem mapM_eq_ok {ε β γ : Type} {f : β → Except ε γ} {xs : List β} {ys : List γ} :
    xs.mapM f = .ok ys ↔ List.Forall₂ (fun x y ↦ f x = .ok y) xs ys := by
  induction xs generalizing ys with
  | nil =>
    rw [List.mapM_nil, List.forall₂_nil_left_iff]
    exact ⟨fun h ↦ (Except.ok.inj h).symm, fun h ↦ congrArg Except.ok h.symm⟩
  | cons x xs ih =>
    simp only [List.mapM_cons, bind_eq_ok, ih, pure, Except.pure, Except.ok.injEq,
      List.forall₂_cons_left_iff]
    constructor
    · rintro ⟨y, hy, zs, hzs, rfl⟩
      exact ⟨y, zs, hy, hzs, rfl⟩
    · rintro ⟨y, zs, hy, hzs, rfl⟩
      exact ⟨y, hy, zs, hzs, rfl⟩

namespace Json

theorem skip_eq_ok {j : Json} {u : Unit} : j.skip = .ok u ↔ j.skipFault = none := by
  unfold skip
  split <;> simp [*]

theorem take_eq_ok {depth : Nat} {j : Json} {u : Unit} :
    j.take depth = .ok u ↔ j.takeFault depth = none := by
  unfold take
  split <;> simp [*]

theorem uncut_eq_ok {cut : Option Obstacle} {u : Unit} : uncut cut = .ok u ↔ cut = none := by
  cases cut <;> simp [uncut]

theorem decode_of_writes {β : Type} (value : Json → Decoded β) {j : Json} {s : String}
    (h : Writes Numeral.isInRange j s) : decode value s = value j := by
  rw [decode, read_of_writes h]
  cases value j <;> rfl

variable {β : Type} {value : Json → Decoded β}

theorem asOption_of_ne {j : Json} {x : β} (hj : j ≠ .null) (hx : value j = .ok x) :
    asOption value j = .ok (some x) := by
  cases j with
  | null => exact absurd rfl hj
  | _ => simp only [asOption, hx]; rfl

theorem asList_eq_ok {items : List Json} {cut : Option Obstacle} {xs : List β} :
    asList value (.array items cut) = .ok xs ↔
      cut = none ∧ List.Forall₂ (fun j x ↦ value j = .ok x) items xs := by
  simp only [asList, bind_eq_ok, mapM_eq_ok, uncut_eq_ok, pure, Except.pure, Except.ok.injEq]
  constructor
  · rintro ⟨ys, hys, -, hcut, rfl⟩
    exact ⟨hcut, hys⟩
  · rintro ⟨hcut, hxs⟩
    exact ⟨xs, hxs, (), hcut, rfl⟩

end Json

theorem Table.put_new {β : Type} {t : Table β} {key : String} (x : β) (h : key ∉ t.map Prod.fst) :
    t.put key x = t ++ [(key, x)] := by
  have hany : t.any (·.1 == key) = false := by
    simp only [List.any_eq_false, beq_iff_eq]
    exact fun e he heq ↦ h (heq ▸ List.mem_map_of_mem he)
  rw [put, hany]
  rfl

theorem Json.asTable_entries {β : Type} {value : Json → Decoded β} {members : List (String × Json)}
    {t : Table β} (hn : (t.map Prod.fst).Nodup)
    (h : List.Forall₂ (fun m e ↦ m.1 = e.1 ∧ value m.2 = .ok e.2) members t) :
    asTable value (record members) = .ok t := by
  have hfold : ∀ (members : List (String × Json)) (t : Table β),
      List.Forall₂ (fun m e ↦ m.1 = e.1 ∧ value m.2 = .ok e.2) members t → ∀ before : Table β,
      ((before ++ t).map Prod.fst).Nodup →
      members.foldlM (fun (t : Table β) m ↦ return t.put m.1 (← value m.2)) before =
        (.ok (before ++ t) : Decoded (Table β)) := by
    intro members t h
    induction h with
    | nil =>
      intro before _
      rw [List.append_nil]
      rfl
    | @cons m e members t hm _ ih =>
      intro before hn
      have hnew : e.1 ∉ before.map Prod.fst := by
        rw [List.map_append, List.nodup_append] at hn
        exact fun he ↦ hn.2.2 e.1 he e.1 (by simp) rfl
      have happend : before ++ e :: t = before ++ [e] ++ t := by simp
      rw [happend] at hn ⊢
      refine bind_eq_ok.mpr ⟨before ++ [e], bind_eq_ok.mpr ⟨e.2, hm.2, ?_⟩, ih _ hn⟩
      rw [hm.1, Table.put_new e.2 hnew]
      rfl
  exact bind_eq_ok.mpr ⟨t, hfold members t h [] (by simpa using hn), rfl⟩

namespace RecordShape

variable {ρ : Type} {r : RecordShape ρ} {members : List (String × Json)} {m : String × Json}
  {f g : Field ρ} {x y : Filling ρ}

theorem find_field (hf : f ∈ r.fields) (hm : m.1 ∈ f.names) :
    r.fields.find? (m.1 ∈ ·.names) = some f := by
  have hsome : (r.fields.find? (m.1 ∈ ·.names)).isSome = true :=
    List.find?_isSome.mpr ⟨f, hf, by simpa using hm⟩
  obtain ⟨g, hg⟩ := Option.isSome_iff_exists.mp hsome
  have hname : m.1 ∈ g.names := by simpa using List.find?_some hg
  by_cases hne : f = g
  · rw [hg, hne]
  · exact absurd hname ((apart_of_ne hf (List.mem_of_find?_eq_some hg) hne).1 _ hm)

theorem fill_field (hf : f ∈ r.fields) (hm : m.1 ∈ f.names) : r.fill x m = .ok y ↔
    f.name ∉ x.given ∧ ∃ v, f.codec.read m.2 = .ok v ∧ ⟨f.set x.record v, f.name :: x.given⟩ = y := by
  rw [fill, find_field hf hm]
  by_cases hgiven : f.name ∈ x.given
  · simp [hgiven]
  · simp only [hgiven, if_false, not_false_eq_true, true_and, bind_eq_ok, pure, Except.pure,
      Except.ok.injEq]

theorem fill_other (hm : ∀ f ∈ r.fields, m.1 ∉ f.names) :
    r.fill x m = .ok y ↔ m.2.skipFault = none ∧ x = y := by
  have hnone : r.fields.find? (m.1 ∈ ·.names) = none :=
    List.find?_eq_none.mpr fun f hf ↦ by simpa using hm f hf
  simp only [fill, hnone, bind_eq_ok, Json.skip_eq_ok, pure, Except.pure, Except.ok.injEq]
  exact ⟨fun ⟨_, hs, hx⟩ ↦ ⟨hs, hx⟩, fun ⟨hs, hx⟩ ↦ ⟨(), hs, hx⟩⟩

/-- What has become of a record once members have been read. A field is given by the one member under
its names, or else as in the base. -/
structure Filled (r : RecordShape ρ) (members : List (String × Json)) (x : Filling ρ) : Prop where
  field {f : Field ρ} (hf : f ∈ r.fields) :
    (f.name ∈ x.given ∧ ∃ m, members.filter (·.1 ∈ f.names) = [m] ∧
      f.codec.read m.2 = .ok (f.get x.record)) ∨
    f.name ∉ x.given ∧ members.filter (·.1 ∈ f.names) = [] ∧ f.get x.record = f.get r.base
  other {m : String × Json} (hm : m ∈ members) (ho : ∀ f ∈ r.fields, m.1 ∉ f.names) :
    m.2.skipFault = none

theorem filter_concat_of_mem (h : m.1 ∈ f.names) : (members ++ [m]).filter (·.1 ∈ f.names) =
    members.filter (·.1 ∈ f.names) ++ [m] := by simp [h]

theorem filter_concat_of_notMem (h : m.1 ∉ f.names) : (members ++ [m]).filter (·.1 ∈ f.names) =
    members.filter (·.1 ∈ f.names) := by simp [h]

theorem Filled.concat (h : r.Filled members x) (hx : r.fill x m = .ok y) :
    r.Filled (members ++ [m]) y := by
  by_cases hk : ∃ f ∈ r.fields, m.1 ∈ f.names
  · obtain ⟨f, hf, hm⟩ := hk
    obtain ⟨hgiven, v, hv, rfl⟩ := (fill_field hf hm).mp hx
    refine ⟨fun {g} hg ↦ ?_, fun {n} hn ho ↦ ?_⟩
    · by_cases hne : f = g
      · subst hne
        rcases h.field hf with ⟨hin, -⟩ | ⟨-, hnone, -⟩
        · exact absurd hin hgiven
        · refine .inl ⟨List.mem_cons_self, m, ?_, ?_⟩
          · rw [filter_concat_of_mem hm, hnone, List.nil_append]
          · rw [hv, f.get_set]
      · obtain ⟨hnames, hkeep, -⟩ := apart_of_ne hf hg hne
        have hname : g.name ≠ f.name := fun heq ↦
          hnames f.name List.mem_cons_self (heq ▸ List.mem_cons_self)
        rw [filter_concat_of_notMem (hnames _ hm), hkeep]
        simpa [hname] using h.field hg
    · rcases List.mem_append.mp hn with hn | hn
      · exact h.other hn ho
      · exact absurd (List.mem_singleton.mp hn ▸ hm) (ho f hf)
  · have hother : ∀ f ∈ r.fields, m.1 ∉ f.names := fun f hf hm ↦ hk ⟨f, hf, hm⟩
    obtain ⟨hs, rfl⟩ := (fill_other hother).mp hx
    refine ⟨fun {g} hg ↦ ?_, fun {n} hn ho ↦ ?_⟩
    · rw [filter_concat_of_notMem (hother g hg)]
      exact h.field hg
    · rcases List.mem_append.mp hn with hn | hn
      · exact h.other hn ho
      · exact List.mem_singleton.mp hn ▸ hs

theorem filled_of_fillAll (h : r.fillAll members = .ok x) : r.Filled members x := by
  induction members using List.reverseRecOn generalizing x with
  | nil =>
    cases h
    exact ⟨fun _ ↦ .inr ⟨List.not_mem_nil, rfl, rfl⟩, nofun⟩
  | append_singleton members m ih =>
    obtain ⟨y, hy, hx⟩ := foldlM_concat_eq_ok.mp h
    exact (ih hy).concat hx

theorem exists_fillAll (hf : ∀ f ∈ r.fields, members.filter (·.1 ∈ f.names) = [] ∨
      ∃ m v, members.filter (·.1 ∈ f.names) = [m] ∧ f.codec.read m.2 = .ok v)
    (ho : ∀ m ∈ members, (∀ f ∈ r.fields, m.1 ∉ f.names) → m.2.skipFault = none) :
    ∃ x, r.fillAll members = .ok x := by
  induction members using List.reverseRecOn with
  | nil => exact ⟨_, rfl⟩
  | append_singleton members m ih =>
    have hbefore : ∀ f ∈ r.fields, members.filter (·.1 ∈ f.names) = [] ∨
        ∃ m v, members.filter (·.1 ∈ f.names) = [m] ∧ f.codec.read m.2 = .ok v := by
      intro f hmem
      by_cases hm : m.1 ∈ f.names
      · left
        have hf := hf f hmem
        rw [filter_concat_of_mem hm] at hf
        rcases hf with hf | ⟨n, v, hf, -⟩
        · simp at hf
        · exact (List.append_eq_singleton_iff.mp hf).elim And.left fun h ↦ by simp at h
      · rw [← filter_concat_of_notMem hm]
        exact hf f hmem
    obtain ⟨x, hx⟩ := ih hbefore fun n hn ↦ ho n (by simp [hn])
    have hfilled := filled_of_fillAll hx
    have hnext : ∃ y, r.fill x m = .ok y := by
      by_cases hk : ∃ f ∈ r.fields, m.1 ∈ f.names
      · obtain ⟨f, hmem, hm⟩ := hk
        have hone := hf f hmem
        rw [filter_concat_of_mem hm] at hone
        rcases hone with hone | ⟨n, v, hone, hv⟩
        · simp at hone
        · obtain ⟨hnone, hn⟩ : members.filter (·.1 ∈ f.names) = [] ∧ m = n := by
            simpa [List.append_eq_singleton_iff] using hone
          have hgiven : f.name ∉ x.given := by
            rcases hfilled.field hmem with ⟨-, k, hk, -⟩ | ⟨hgiven, -⟩
            · rw [hnone] at hk
              cases hk
            · exact hgiven
          exact ⟨_, (fill_field hmem hm).mpr ⟨hgiven, v, hn ▸ hv, rfl⟩⟩
      · have hother : ∀ f ∈ r.fields, m.1 ∉ f.names := fun f hf hm ↦ hk ⟨f, hf, hm⟩
        exact ⟨x, (fill_other hother).mpr ⟨ho m (by simp) hother, rfl⟩⟩
    obtain ⟨y, hy⟩ := hnext
    exact ⟨y, foldlM_concat_eq_ok.mpr ⟨x, hx, hy⟩⟩

theorem missing?_eq_none : r.missing? x = none ↔
    ∀ f ∈ r.fields, f.required = true → f.name ∈ x.given := by
  simp [missing?, List.find?_eq_none]

theorem Filled.means (h : r.Filled members x) (hx : r.missing? x = none) :
    r.Means members x.record where
  field {f} hf := by
    rcases h.field hf with ⟨-, hm⟩ | ⟨hgiven, hm, hbase⟩
    · exact .inl hm
    · refine .inr ⟨hm, ?_, hbase⟩
      by_contra hrequired
      exact hgiven (missing?_eq_none.mp hx f hf (by simpa using hrequired))
  other := h.other

theorem Means.exists_filling {z : ρ} (h : r.Means members z) :
    ∃ x, r.fillAll members = .ok x ∧ r.missing? x = none ∧ x.record = z := by
  have hf : ∀ f ∈ r.fields, members.filter (·.1 ∈ f.names) = [] ∨
      ∃ m v, members.filter (·.1 ∈ f.names) = [m] ∧ f.codec.read m.2 = .ok v := by
    intro f hf
    rcases h.field hf with ⟨m, hm, hv⟩ | ⟨hm, -⟩
    · exact .inr ⟨m, f.get z, hm, hv⟩
    · exact .inl hm
  obtain ⟨x, hx⟩ := exists_fillAll hf fun m hm ↦ h.other hm
  have hfilled := filled_of_fillAll hx
  refine ⟨x, hx, missing?_eq_none.mpr fun f hf hrequired ↦ ?_, r.ext _ _ fun f hf ↦ ?_⟩
  · rcases hfilled.field hf with ⟨hgiven, -⟩ | ⟨-, hnone, -⟩
    · exact hgiven
    · rcases h.field hf with ⟨m, hm, -⟩ | ⟨-, hrequired', -⟩
      · rw [hnone] at hm
        cases hm
      · rw [hrequired] at hrequired'
        cases hrequired'
  · rcases hfilled.field hf with ⟨-, m, hm, hv⟩ | ⟨-, hnone, hbase⟩
    · rcases h.field hf with ⟨m', hm', hv'⟩ | ⟨hm', -⟩
      · obtain rfl : m = m' := List.singleton_inj.mp (hm.symm.trans hm')
        exact Except.ok.inj (hv.symm.trans hv')
      · rw [hm'] at hm
        cases hm
    · rcases h.field hf with ⟨m', hm', -⟩ | ⟨-, -, hbase'⟩
      · rw [hnone] at hm'
        cases hm'
      · rw [hbase, hbase']

theorem means_iff {z : ρ} : r.Means members z ↔
    ∃ x, r.fillAll members = .ok x ∧ r.missing? x = none ∧ x.record = z := by
  refine ⟨Means.exists_filling, ?_⟩
  rintro ⟨x, hx, hmissing, rfl⟩
  exact (filled_of_fillAll hx).means hmissing

/-- A filling is a record if nothing is missing. -/
theorem complete_eq_ok {fail : Field ρ → DecodeError} {z : ρ} :
    (match r.missing? x with
      | none => .ok x.record
      | some f => .error (fail f)) = Except.ok z ↔ r.missing? x = none ∧ x.record = z := by
  cases r.missing? x <;> simp

theorem ofMembers_eq_ok {cut : Option Obstacle} {z : ρ} :
    r.ofMembers members cut = .ok z ↔ cut = none ∧ r.Means members z := by
  rw [means_iff]
  constructor
  · intro h
    obtain ⟨x, hx, h⟩ := bind_ok h
    obtain ⟨_, hcut, h⟩ := bind_ok h
    exact ⟨Json.uncut_eq_ok.mp hcut, x, hx, complete_eq_ok.mp h⟩
  · rintro ⟨rfl, x, hx, hcomplete⟩
    exact bind_eq_ok.mpr ⟨x, hx, bind_eq_ok.mpr ⟨(), rfl, complete_eq_ok.mpr hcomplete⟩⟩

theorem ofItems_eq_ok {items : List Json} {cut : Option Obstacle} {z : ρ} :
    r.ofItems items cut = .ok z ↔
      cut = none ∧ items.length ≤ r.fields.length ∧ r.Means (r.named items) z := by
  rw [means_iff]
  constructor
  · intro h
    obtain ⟨x, hx, h⟩ := bind_ok h
    by_cases hlength : r.fields.length < items.length
    · rw [if_pos hlength] at h
      cases h
    · rw [if_neg hlength] at h
      obtain ⟨_, hcut, h⟩ := bind_ok h
      exact ⟨Json.uncut_eq_ok.mp hcut, Nat.not_lt.mp hlength, x, hx, complete_eq_ok.mp h⟩
  · rintro ⟨rfl, hlength, x, hx, hcomplete⟩
    refine bind_eq_ok.mpr ⟨x, hx, ?_⟩
    rw [if_neg (Nat.not_lt.mpr hlength)]
    exact bind_eq_ok.mpr ⟨(), rfl, complete_eq_ok.mpr hcomplete⟩

end RecordShape

namespace TaggedShape

variable {ρ : Type} {t : TaggedShape ρ} {depth : Nat} {members : List (String × Json)}
  {m : String × Json} {x y : Tagged}

theorem asTag_eq_ok {j : Json} {tag : String} :
    t.asTag j = .ok tag ↔ j = .string tag ∧ tag ∈ t.variants.map Variant.tag := by
  cases j with
  | string s =>
    by_cases hs : s ∈ t.variants.map Variant.tag
    · simp only [asTag, if_pos hs, Except.ok.injEq, Json.string.injEq]
      exact ⟨fun h ↦ ⟨h, h ▸ hs⟩, And.left⟩
    · simp only [asTag, if_neg hs, Json.string.injEq]
      exact ⟨nofun, fun ⟨heq, hin⟩ ↦ absurd (heq ▸ hin) hs⟩
  | _ => simp [asTag]

/-- What has become of members that have been sorted. -/
structure Sorted (t : TaggedShape ρ) (depth : Nat) (members : List (String × Json)) (x : Tagged) :
    Prop where
  tag : (members.filter (·.1 = t.tagName) = [] ∧ x.tag = none) ∨ ∃ m tag,
    members.filter (·.1 = t.tagName) = [m] ∧ t.asTag m.2 = .ok tag ∧ x.tag = some tag
  rest : x.members = members.filter (·.1 ≠ t.tagName)
  taken : ∀ m ∈ members, m.1 ≠ t.tagName → m.2.takeFault depth = none

theorem sort_tag (hm : m.1 = t.tagName) : t.sort depth x m = .ok y ↔
    x.tag = none ∧ ∃ tag, t.asTag m.2 = .ok tag ∧ { x with tag := some tag } = y := by
  rw [sort, if_pos hm]
  cases x.tag with
  | some _ => simp
  | none =>
    simp only [Option.isSome_none, Bool.false_eq_true, if_false, true_and, bind_eq_ok, pure,
      Except.pure, Except.ok.injEq]

theorem sort_other (hm : m.1 ≠ t.tagName) : t.sort depth x m = .ok y ↔
    m.2.takeFault depth = none ∧ { x with members := x.members ++ [m] } = y := by
  simp only [sort, if_neg hm, bind_eq_ok, Json.take_eq_ok, pure, Except.pure, Except.ok.injEq]
  exact ⟨fun ⟨_, ht, hx⟩ ↦ ⟨ht, hx⟩, fun ⟨ht, hx⟩ ↦ ⟨(), ht, hx⟩⟩

theorem sorted_tag (hm : m.1 = t.tagName) : t.Sorted depth (members ++ [m]) x ↔
    ∃ y, t.Sorted depth members y ∧ t.sort depth y m = .ok x := by
  have hfilter : (members ++ [m]).filter (·.1 = t.tagName) =
      members.filter (·.1 = t.tagName) ++ [m] := by simp [hm]
  have hrest : (members ++ [m]).filter (·.1 ≠ t.tagName) =
      members.filter (·.1 ≠ t.tagName) := by simp [hm]
  simp only [sort_tag hm]
  constructor
  · rintro ⟨htag, hmembers, htaken⟩
    rw [hfilter] at htag
    rw [hrest] at hmembers
    rcases htag with ⟨hno, -⟩ | ⟨n, tag, hone, htag, hx⟩
    · simp at hno
    · obtain ⟨hno, rfl⟩ : members.filter (·.1 = t.tagName) = [] ∧ m = n := by
        simpa [List.append_eq_singleton_iff] using hone
      refine ⟨{ x with tag := none }, ⟨.inl ⟨hno, rfl⟩, hmembers, fun n hn ↦
        htaken n (by simp [hn])⟩, rfl, tag, htag, ?_⟩
      rw [← hx]
  · rintro ⟨y, hy, hnone, tag, htag, rfl⟩
    refine ⟨.inr ⟨m, tag, ?_, htag, rfl⟩, by rw [hrest]; exact hy.rest, ?_⟩
    · rcases hy.tag with ⟨hno, -⟩ | ⟨_, _, -, -, hsome⟩
      · rw [hfilter, hno, List.nil_append]
      · rw [hnone] at hsome
        cases hsome
    · simp only [List.forall_mem_append, List.forall_mem_singleton]
      exact ⟨hy.taken, fun hne ↦ absurd hm hne⟩

theorem sorted_other (hm : m.1 ≠ t.tagName) : t.Sorted depth (members ++ [m]) x ↔
    ∃ y, t.Sorted depth members y ∧ t.sort depth y m = .ok x := by
  have hfilter : (members ++ [m]).filter (·.1 = t.tagName) =
      members.filter (·.1 = t.tagName) := by simp [hm]
  have hrest : (members ++ [m]).filter (·.1 ≠ t.tagName) =
      members.filter (·.1 ≠ t.tagName) ++ [m] := by simp [hm]
  simp only [sort_other hm]
  constructor
  · rintro ⟨htag, hmembers, htaken⟩
    rw [hfilter] at htag
    rw [hrest] at hmembers
    exact ⟨{ x with members := members.filter (·.1 ≠ t.tagName) }, ⟨htag, rfl, fun n hn ↦
      htaken n (by simp [hn])⟩, htaken m (by simp) hm, by rw [← hmembers]⟩
  · rintro ⟨y, hy, htake, rfl⟩
    refine ⟨by rw [hfilter]; exact hy.tag, by rw [hrest, ← hy.rest], ?_⟩
    simp only [List.forall_mem_append, List.forall_mem_singleton]
    exact ⟨hy.taken, fun _ ↦ htake⟩

theorem foldlM_sort_eq_ok : members.foldlM (t.sort depth) {} = .ok x ↔ t.Sorted depth members x := by
  induction members using List.reverseRecOn generalizing x with
  | nil =>
    constructor
    · rintro ⟨⟩
      exact ⟨.inl ⟨rfl, rfl⟩, rfl, nofun⟩
    · rintro ⟨htag | ⟨m, tag, hm, -⟩, hmembers, -⟩
      · obtain ⟨tag, members⟩ := x
        cases htag.2
        cases hmembers
        rfl
      · cases hm
  | append_singleton members m ih =>
    rw [foldlM_concat_eq_ok]
    simp only [ih]
    by_cases hm : m.1 = t.tagName
    · exact (sorted_tag hm).symm
    · exact (sorted_other hm).symm

theorem withVariant_tag {v : Variant ρ} (hv : v ∈ t.variants) (next : Variant ρ → Decoded ρ) :
    t.withVariant (some v.tag) next = next v := by
  have hsome : (t.variants.find? (some v.tag = some ·.tag)).isSome = true :=
    List.find?_isSome.mpr ⟨v, hv, by simp⟩
  obtain ⟨w, hw⟩ := Option.isSome_iff_exists.mp hsome
  have htag : v.tag = w.tag := by simpa using List.find?_some hw
  have heq : v = w :=
    List.inj_on_of_nodup_map t.distinct hv (List.mem_of_find?_eq_some hw) htag
  rw [withVariant, hw, heq]

theorem ofMembers_eq_ok {cut : Option Obstacle} {z : ρ} :
    t.ofMembers depth members cut = .ok z ↔ cut = none ∧ t.Means depth members z := by
  constructor
  · intro h
    obtain ⟨x, hx, h⟩ := bind_ok h
    obtain ⟨_, hcut, h⟩ := bind_ok h
    obtain ⟨htag, hmembers, htaken⟩ := foldlM_sort_eq_ok.mp hx
    refine ⟨Json.uncut_eq_ok.mp hcut, ?_⟩
    rcases htag with ⟨-, hnone⟩ | ⟨m, tag, hone, htag, hsome⟩
    · have hfind : t.variants.find? (none = some ·.tag) = none := by simp
      rw [hnone, withVariant, hfind] at h
      cases h
    · obtain ⟨hstring, hin⟩ := asTag_eq_ok.mp htag
      obtain ⟨v, hv, rfl⟩ := List.mem_map.mp hin
      rw [hsome, withVariant_tag hv] at h
      obtain ⟨c, hc, rfl⟩ := map_ok h
      exact ⟨v, hv, ⟨m, hone, hstring⟩, htaken, c,
        hmembers ▸ (RecordShape.ofMembers_eq_ok.mp hc).2, rfl⟩
  · rintro ⟨rfl, v, hv, ⟨m, hone, hstring⟩, htaken, c, hc, rfl⟩
    have htag : t.asTag m.2 = .ok v.tag := asTag_eq_ok.mpr ⟨hstring, List.mem_map_of_mem hv⟩
    have hsorted : t.Sorted depth members ⟨some v.tag, members.filter (·.1 ≠ t.tagName)⟩ :=
      ⟨.inr ⟨m, v.tag, hone, htag, rfl⟩, rfl, htaken⟩
    refine bind_eq_ok.mpr ⟨_, foldlM_sort_eq_ok.mpr hsorted, bind_eq_ok.mpr ⟨(), rfl, ?_⟩⟩
    rw [withVariant_tag hv, RecordShape.ofMembers_eq_ok.mpr ⟨rfl, hc⟩]
    rfl

end TaggedShape

/-- The library that runs does as it is documented to. -/
theorem JsonLayer.standard_conforms : standard.Conforms where
  decode_eq value _ _ h := Json.decode_of_writes value h
  writes_text h := Json.writes_text h
  one_lt_maxDepth := by decide
  read_string _ := rfl
  write_string := rfl
  read_bool _ := rfl
  write_bool := rfl
  read_null _ := rfl
  read_some _ _ _ hj hx := Json.asOption_of_ne hj hx
  write_option _ _ := rfl
  read_list _ := Json.asList_eq_ok
  write_list _ _ := rfl
  read_table _ _ _ hn h := Json.asTable_entries hn h
  write_table _ _ := rfl
  read_object _ := RecordShape.ofMembers_eq_ok
  read_array _ := RecordShape.ofItems_eq_ok
  write_record _ _ := rfl
  read_tagged _ := TaggedShape.ofMembers_eq_ok
  write_tagged _ _ := rfl

namespace JsonLayer

theorem readsBack_double_iff (x : Float) : standard.ReadsBack standard.double x ↔
    (NumberLayout.json.numeral? .double (Binary.ofFloat x)).any (·.double? = some x) = true := by
  simp only [ReadsBack, standard, Json.ofDouble]
  cases NumberLayout.json.numeral? .double (Binary.ofFloat x) with
  | none => simp
  | some n => cases hn : n.double? <;> simp [Json.asDouble, Numeral.isInRange, hn]

theorem readsBack_single_iff (x : Float32) : standard.ReadsBack standard.single x ↔
    (NumberLayout.json.numeral? .single (Binary.ofFloat32 x)).any
      (fun n ↦ n.isInRange && n.single? = some x) = true := by
  simp only [ReadsBack, standard, Json.ofSingle]
  cases NumberLayout.json.numeral? .single (Binary.ofFloat32 x) with
  | none => simp
  | some n => cases hn : n.single? <;> simp [Json.asSingle, hn]

instance (x : Float) : Decidable (standard.ReadsBack standard.double x) :=
  decidable_of_iff _ (readsBack_double_iff x).symm

instance (x : Float32) : Decidable (standard.ReadsBack standard.single x) :=
  decidable_of_iff _ (readsBack_single_iff x).symm

end JsonLayer

end Diagram
