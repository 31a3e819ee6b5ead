namespace Diagram

variable {ε β γ : Type}

theorem bind_eq_ok {r : Except ε β} {f : β → Except ε γ} {y : γ} :
    r >>= f = .ok y ↔ ∃ x, r = .ok x ∧ f x = .ok y := by
  cases r with
  | error _ => exact ⟨nofun, fun ⟨_, h, _⟩ ↦ nomatch h⟩
  | ok x => exact ⟨fun h ↦ ⟨x, rfl, h⟩, fun ⟨_, rfl, h⟩ ↦ h⟩

theorem bind_ok {r : Except ε β} {f : β → Except ε γ} {y : γ} (h : r >>= f = .ok y) :
    ∃ x, r = .ok x ∧ f x = .ok y := bind_eq_ok.mp h

theorem map_ok {f : β → γ} {r : Except ε β} {y : γ} (h : f <$> r = .ok y) :
    ∃ x, r = .ok x ∧ f x = y := by
  cases r with
  | error _ => cases h
  | ok x =>
    cases h
    exact ⟨x, rfl, rfl⟩

theorem foldlM_induct {P : γ → Prop} {f : γ → β → Except ε γ}
    (hf : ∀ {s x s'}, f s x = .ok s' → P s → P s') (xs : List β) {s s' : γ}
    (h : xs.foldlM f s = .ok s') (hs : P s) : P s' := by
  induction xs generalizing s with
  | nil =>
    cases h
    exact hs
  | cons x xs ih =>
    rw [List.foldlM_cons] at h
    obtain ⟨m, hm, h⟩ := bind_ok h
    exact ih h (hf hm hs)

theorem foldlM_concat_eq_ok {f : γ → β → Except ε γ} {xs : List β} {x : β} {s s' : γ} :
    (xs ++ [x]).foldlM f s = .ok s' ↔ ∃ m, xs.foldlM f s = .ok m ∧ f m x = .ok s' := by
  simp only [List.foldlM_append, List.foldlM_cons, List.foldlM_nil, bind_pure, bind_eq_ok]

end Diagram
