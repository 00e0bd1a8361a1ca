import Webshell.Machine

/-!
# Machines that settle

Some of a machine's events are owed: nothing outside the machine has to happen
first. Where every owed step that changes the state leaves less work, a machine
that is left alone comes to rest, in whatever order its steps are taken.
-/

namespace Machine

variable {σ ε : Type} (M : Machine σ ε) (owed : ε → Prop)

/-- No owed step changes anything. -/
def Quiet (s : σ) : Prop := ∀ e s', owed e → M.step s e = some s' → s' = s

/-- Owed steps alone lead from one state to the other. -/
def Leads (s t : σ) : Prop := ∃ es, (∀ e ∈ es, owed e) ∧ M.run s es = some t

structure Settles (I : σ → Prop) (work : σ → Nat) : Prop where
  keeps : ∀ s e s', I s → owed e → M.step s e = some s' → I s'
  works : ∀ s e s', I s → owed e → M.step s e = some s' → s' = s ∨ work s' < work s

namespace Leads

variable {M owed} {s t u : σ}

theorem refl (s : σ) : M.Leads owed s s := ⟨[], by simp, rfl⟩

theorem trans (h₁ : M.Leads owed s t) (h₂ : M.Leads owed t u) : M.Leads owed s u := by
  obtain ⟨es, hes, hr⟩ := h₁
  obtain ⟨fs, hfs, hr'⟩ := h₂
  refine ⟨es ++ fs, fun e he => ?_, M.run_append hr hr'⟩
  rcases List.mem_append.mp he with he | he
  · exact hes e he
  · exact hfs e he

theorem step {e : ε} (he : owed e) (h : M.step s e = some t) : M.Leads owed s t :=
  ⟨[e], by simpa using he, by simp [run, h]⟩

theorem inv {I : σ → Prop} (hI : ∀ s e s', I s → owed e → M.step s e = some s' → I s') (h : M.Leads owed s t)
    (hs : I s) : I t := by
  obtain ⟨es, hes, hr⟩ := h
  exact M.run_inv_along (P := fun _ e => owed e) hI hr (M.along_of_forall hes s) hs

end Leads

namespace Settles

variable {M owed} {I : σ → Prop} {work : σ → Nat}

/-- **Termination.** There are at most as many changes as there is work. -/
theorem changes_le (h : M.Settles owed I work) {s t : σ} {es : List ε} (hs : I s) (hes : ∀ e ∈ es, owed e)
    (hchange : M.Along (fun s e => M.step s e ≠ some s) s es) (hr : M.run s es = some t) :
    es.length + work t ≤ work s := by
  induction es generalizing s with
  | nil => rw [run_nil] at hr; cases hr; simp
  | cons e es ih =>
    obtain ⟨s', hs', hr'⟩ := M.run_cons hr
    have he := hes e (by simp)
    have hrest := ih (h.keeps s e s' hs he hs') (fun e he => hes e (by simp [he])) (hchange.2 s' hs') hr'
    rcases h.works s e s' hs he hs' with rfl | hlt
    · exact absurd hs' hchange.1
    · simp only [List.length_cons]
      omega

/-- **Progress.** Every state leads to a quiet one. -/
theorem leads_quiet (h : M.Settles owed I work) {s : σ} (hs : I s) : ∃ t, M.Leads owed s t ∧ M.Quiet owed t := by
  induction hn : work s using Nat.strongRecOn generalizing s with
  | _ n ih =>
    by_cases hq : M.Quiet owed s
    · exact ⟨s, .refl s, hq⟩
    · simp only [Quiet, not_forall] at hq
      obtain ⟨e, s', he, hs', hne⟩ := hq
      have hlt := (h.works s e s' hs he hs').resolve_left hne
      obtain ⟨t, ht, hq⟩ := ih (work s') (hn ▸ hlt) (h.keeps s e s' hs he hs') rfl
      exact ⟨t, (Leads.step he hs').trans ht, hq⟩

end Settles

end Machine
