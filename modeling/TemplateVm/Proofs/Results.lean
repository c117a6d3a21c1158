import TemplateVm.Zoom

set_option autoImplicit false

/-!
# Results of actions

`Ends` says what an action leaves in either case, when it is done and when it fails. Where all goes
well along a list, it went well for every member. `occasions` lists the states that the calls of a
run are made in.
-/
namespace TemplateVm

/-- What holds of the end of an action, with one property for each way to end. -/
def Ends {ε σ α : Type} (done : α → σ → Prop) (failed : ε → σ → Prop) :
    EStateM.Result ε σ α → Prop
  | .ok a s => done a s
  | .error e s => failed e s

namespace Ends

section
variable {ε σ τ α β : Type} {P : α → σ → Prop} {Q : β → σ → Prop} {F G : ε → σ → Prop}
  {m : EStateM ε σ α} {f : α → EStateM ε σ β} {s : σ} {r : EStateM.Result ε σ α} {a : α} {e : ε}

theorem mono {P' : α → σ → Prop} (h : Ends P F r) (done : ∀ a s, P a s → P' a s)
    (failed : ∀ e s, F e s → G e s) : Ends P' G r := by
  cases r with
  | ok a s => exact done a s h
  | error e s => exact failed e s h

theorem and {P' : α → σ → Prop} (h : Ends P F r) (h' : Ends P' G r) :
    Ends (fun a s => P a s ∧ P' a s) (fun e s => F e s ∧ G e s) r := by
  cases r with
  | ok a s => exact ⟨h, h'⟩
  | error e s => exact ⟨h, h'⟩

/-- The second action goes on where the first is done; where the first fails, so does the whole. -/
theorem bind (h : Ends P F (m s)) (failed : ∀ e s', F e s' → G e s')
    (next : ∀ a s', P a s' → Ends Q G (f a s')) : Ends Q G ((m >>= f) s) := by
  change Ends Q G (EStateM.bind m f s)
  unfold EStateM.bind
  cases hm : m s with
  | ok a s' =>
    rw [hm] at h
    exact next a s' h
  | error e s' =>
    rw [hm] at h
    exact failed e s' h

/-- What only the second action is known to leave. -/
theorem next (h : ∀ a s', Ends Q (fun _ _ => True) (f a s')) :
    Ends Q (fun _ _ => True) ((m >>= f) s) := by
  refine bind (P := fun _ _ => True) (F := fun _ _ => True) ?_ (fun _ _ _ => trivial)
    fun a s' _ => h a s'
  cases m s <;> trivial

theorem pure (h : P a s) : Ends P F ((Pure.pure a : EStateM ε σ α) s) := h

theorem pure_bind (h : Ends Q F (f a s)) : Ends Q F ((Pure.pure a >>= f) s) := h

theorem map {g : α → β} (h : Ends (fun a s' => Q (g a) s') F (m s)) :
    Ends Q F ((g <$> m) s) := by
  change Ends Q F (EStateM.map g m s)
  unfold EStateM.map
  cases hm : m s with
  | ok a s' =>
    rw [hm] at h
    exact h
  | error e s' =>
    rw [hm] at h
    exact h

theorem get_bind {f : σ → EStateM ε σ β} (h : Ends Q F (f s s)) :
    Ends Q F ((MonadState.get >>= f) s) := h

theorem modify_bind {g : σ → σ} {f : PUnit → EStateM ε σ β} (h : Ends Q F (f ⟨⟩ (g s))) :
    Ends Q F ((modify g >>= f) s) := h

theorem ite {c : Prop} [Decidable c] {other : EStateM ε σ α} (pos : c → Ends P F (m s))
    (neg : ¬c → Ends P F (other s)) : Ends P F ((if c then m else other) s) := by
  by_cases h : c
  · rw [if_pos h]
    exact pos h
  · rw [if_neg h]
    exact neg h

/-- One step of a loop after the other. -/
theorem forM {γ : Type} {J : σ → Prop} {l : List γ} {f : γ → EStateM ε σ PUnit}
    (step : ∀ x ∈ l, ∀ s, J s → Ends (fun _ s' => J s') F (f x s)) (h : J s) :
    Ends (fun _ s' => J s') F (l.forM f s) := by
  induction l generalizing s with
  | nil => exact h
  | cons x l ih =>
    refine (step x List.mem_cons_self s h).bind (fun _ _ h => h) fun _ s' h' => ?_
    exact ih (fun y hy => step y (List.mem_cons_of_mem x hy)) h'

/-- What is known of the end is known of the run that leads there. -/
theorem ran (h : Ends P F r) :
    Ends (fun a s => r = .ok a s ∧ P a s) (fun e s => r = .error e s ∧ F e s) r := by
  cases r with
  | ok a s => exact ⟨rfl, h⟩
  | error e s => exact ⟨rfl, h⟩

theorem of_ok (h : Ends P F r) (ran : r = .ok a s) : P a s := by
  rw [ran] at h
  exact h

theorem of_error (h : Ends P F r) (ran : r = .error e s) : F e s := by
  rw [ran] at h
  exact h

/-- What cannot fail gives a result. -/
theorem exists_ok (h : Ends P (fun _ _ => False) r) : ∃ a s, r = .ok a s ∧ P a s := by
  cases r with
  | ok a s => exact ⟨a, s, rfl, h⟩
  | error e s => exact h.elim

end

/-- An action on a part of the state leaves the other parts alone. -/
theorem zoom {ε σ τ α : Type} [Inhabited τ] {part : σ → τ} {replace : τ → σ → σ}
    {action : EStateM ε τ α} {P : α → τ → Prop} {F : ε → τ → Prop} {s : σ}
    (h : Ends P F (action (part s))) :
    Ends (fun a s' => ∃ t, P a t ∧ s' = replace t (replace default s))
      (fun e s' => ∃ t, F e t ∧ s' = replace t (replace default s))
      (TemplateVm.zoom part replace action s) := by
  unfold TemplateVm.zoom
  cases run : action (part s) with
  | ok a t =>
    rw [run] at h
    simp only [run]
    exact ⟨t, h, rfl⟩
  | error e t =>
    rw [run] at h
    simp only [run]
    exact ⟨t, h, rfl⟩

end Ends

/-- What holds before the action holds after it, also if the action fails. -/
def Preserves {ε σ α : Type} (I : σ → Prop) (action : EStateM ε σ α) : Prop :=
  ∀ s, I s → Ends (fun _ s' => I s') (fun _ s' => I s') (action s)

namespace Preserves

variable {ε σ α β γ : Type} {I : σ → Prop} {action : EStateM ε σ α} {f : α → EStateM ε σ β}

theorem pure (x : α) : Preserves I (Pure.pure x : EStateM ε σ α) := fun _ h => h

theorem throw (e : ε) : Preserves I (MonadExcept.throw e : EStateM ε σ α) := fun _ h => h

theorem get : Preserves I (MonadState.get : EStateM ε σ σ) := fun _ h => h

theorem modify {g : σ → σ} (same : ∀ s, I s → I (g s)) :
    Preserves I (modify g : EStateM ε σ PUnit) := same

theorem modifyGet {g : σ → α × σ} (same : ∀ s, I s → I (g s).2) :
    Preserves I (MonadStateOf.modifyGet g : EStateM ε σ α) := same

theorem bind (h : Preserves I action) (next : ∀ x, Preserves I (f x)) :
    Preserves I (action >>= f) := fun s hs =>
  (h s hs).bind (fun _ _ h => h) fun x s' h' => next x s' h'

theorem forM {l : List γ} {f : γ → EStateM ε σ PUnit} (each : ∀ x, Preserves I (f x)) :
    Preserves I (l.forM f) := fun _ hs =>
  Ends.forM (fun x _ s h => each x s h) hs

theorem mapM {l : List γ} {f : γ → EStateM ε σ α} (each : ∀ x, Preserves I (f x)) :
    Preserves I (l.mapM f) := by
  induction l with
  | nil =>
    rw [List.mapM_nil]
    exact .pure []
  | cons x l ih =>
    rw [List.mapM_cons]
    exact (each x).bind fun _ => ih.bind fun _ => .pure _

end Preserves

/-- What is read along a list, one after the other. -/
theorem mapM_reads {ε σ α β : Type} {f : α → EStateM ε σ β} {g : α → β} {l : List α} {s : σ}
    (each : ∀ x ∈ l, f x s = .ok (g x) s) : l.mapM f s = .ok (l.map g) s := by
  induction l with
  | nil => rfl
  | cons x l ih =>
    have rest := ih fun y hy => each y (List.mem_cons_of_mem x hy)
    rw [List.mapM_cons]
    change EStateM.bind (f x) _ s = _
    rw [EStateM.bind, each x List.mem_cons_self]
    change EStateM.bind (l.mapM f) _ s = _
    rw [EStateM.bind, rest]
    rfl

/-! ## Results that are values -/

theorem ok_of_bind {ε α β : Type} {m : Except ε α} {f : α → Except ε β} {y : β}
    (h : (m >>= f) = .ok y) : ∃ x, m = .ok x ∧ f x = .ok y := by
  cases m with
  | error e => cases h
  | ok x => exact ⟨x, rfl, h⟩

theorem bind_of_ok {ε α β : Type} {m : Except ε α} {f : α → Except ε β} {x : α}
    (h : m = .ok x) : (m >>= f) = f x := by
  rw [h]
  rfl

theorem forM_ok {ε α : Type} {f : α → Except ε PUnit.{1}} {l : List α} (h : l.forM f = .ok ⟨⟩)
    {x : α} (hx : x ∈ l) : f x = .ok ⟨⟩ := by
  induction l with
  | nil => cases hx
  | cons y l ih =>
    obtain ⟨_, first, rest⟩ := ok_of_bind (m := f y) h
    rcases List.mem_cons.mp hx with rfl | hx
    · exact first
    · exact ih rest hx

theorem mapM_get {ε α β : Type} {f : α → Except ε β} {l : List α} {l' : List β}
    (h : l.mapM f = .ok l') (k : Nat) (x : α) (hx : l[k]? = some x) :
    ∃ y, l'[k]? = some y ∧ f x = .ok y := by
  induction l generalizing l' k with
  | nil => simp at hx
  | cons z l ih =>
    rw [List.mapM_cons] at h
    cases hz : f z with
    | error e => rw [hz] at h; cases h
    | ok w =>
      cases hl : l.mapM f with
      | error e => rw [hz, hl] at h; cases h
      | ok ws =>
        rw [hz, hl] at h
        cases h
        cases k with
        | zero => simp at hx; subst x; exact ⟨w, rfl, hz⟩
        | succ k => exact ih hl k (by simpa using hx)

theorem mapM_length {ε α β : Type} {f : α → Except ε β} {l : List α} {l' : List β}
    (h : l.mapM f = .ok l') : l'.length = l.length := by
  induction l generalizing l' with
  | nil => cases h; rfl
  | cons z l ih =>
    rw [List.mapM_cons] at h
    cases hz : f z with
    | error e => rw [hz] at h; cases h
    | ok w =>
      cases hl : l.mapM f with
      | error e => rw [hz, hl] at h; cases h
      | ok ws => rw [hz, hl] at h; cases h; simp [ih hl]

theorem mapM_ok {ε α β : Type} {f : α → Except ε β} {l : List α}
    (h : ∀ x ∈ l, ∃ y, f x = .ok y) : ∃ l', l.mapM f = .ok l' := by
  induction l with
  | nil => exact ⟨[], rfl⟩
  | cons z l ih =>
    obtain ⟨w, hw⟩ := h z List.mem_cons_self
    obtain ⟨ws, hws⟩ := ih fun x hx => h x (List.mem_cons_of_mem z hx)
    exact ⟨w :: ws, by rw [List.mapM_cons, hw, hws]; rfl⟩

theorem mapM_error {ε α β : Type} {f : α → Except ε β} {l : List α} {e : ε}
    (h : l.mapM f = .error e) : ∃ x ∈ l, f x = .error e := by
  induction l with
  | nil => cases h
  | cons x l ih =>
    rw [List.mapM_cons] at h
    cases first : f x with
    | error e' =>
      rw [first] at h
      cases h
      exact ⟨x, List.mem_cons_self, first⟩
    | ok y =>
      cases rest : l.mapM f with
      | error e' =>
        rw [first, rest] at h
        cases h
        obtain ⟨x', hx', fails⟩ := ih rest
        exact ⟨x', List.mem_cons_of_mem x hx', fails⟩
      | ok ys =>
        rw [first, rest] at h
        cases h

theorem foldlM_eq_ok {ε α β : Type} {f : β → α → Except ε β} {g : β → α → β} {l : List α}
    (h : ∀ x ∈ l, ∀ y, f y x = .ok (g y x)) (y : β) : l.foldlM f y = .ok (l.foldl g y) := by
  induction l generalizing y with
  | nil => rfl
  | cons x l ih =>
    rw [List.foldlM_cons, h x List.mem_cons_self]
    exact ih (fun x' hx' => h x' (List.mem_cons_of_mem x hx')) _

theorem foldlM_ok {ε α β : Type} {f : β → α → Except ε β} {l : List α} {y z : β}
    (h : l.foldlM f y = .ok z) {x : α} (hx : x ∈ l) : ∃ y z, f y x = .ok z := by
  induction l generalizing y with
  | nil => cases hx
  | cons x' l ih =>
    rw [List.foldlM_cons] at h
    obtain ⟨z', first, rest⟩ := ok_of_bind h
    rcases List.mem_cons.mp hx with rfl | hx
    · exact ⟨y, z', first⟩
    · exact ih rest hx

theorem foldlM_error {ε α β : Type} {f : β → α → Except ε β} {l : List α} {y : β} {e : ε}
    (h : l.foldlM f y = .error e) : ∃ x ∈ l, ∃ y, f y x = .error e := by
  induction l generalizing y with
  | nil => cases h
  | cons x l ih =>
    rw [List.foldlM_cons] at h
    cases first : f y x with
    | error e' =>
      rw [first] at h
      cases h
      exact ⟨x, List.mem_cons_self, y, first⟩
    | ok z =>
      rw [first] at h
      obtain ⟨x', hx', fails⟩ := ih h
      exact ⟨x', List.mem_cons_of_mem x hx', fails⟩

/-! ## Calls one after the other -/

/-- Each call, with the state that it is made in. -/
def occasions {σ κ : Type} (perform : σ → κ → σ) (s : σ) : List κ → List (σ × κ)
  | [] => []
  | c :: calls => (s, c) :: occasions perform (perform s c) calls

theorem occasions_append {σ κ : Type} (perform : σ → κ → σ) (s : σ) (calls calls' : List κ) :
    occasions perform s (calls ++ calls') =
      occasions perform s calls ++ occasions perform (calls.foldl perform s) calls' := by
  induction calls generalizing s with
  | nil => rfl
  | cons c calls ih =>
    rw [List.cons_append, occasions, occasions, ih, List.cons_append, List.foldl_cons]

theorem of_mem_occasions {σ κ : Type} {perform : σ → κ → σ} {s : σ} {calls : List κ} {x : σ × κ}
    (h : x ∈ occasions perform s calls) :
    ∃ before after, calls = before ++ x.2 :: after ∧ x.1 = before.foldl perform s := by
  induction calls generalizing s with
  | nil => cases h
  | cons c calls ih =>
    rcases List.mem_cons.mp h with rfl | h
    · exact ⟨[], calls, rfl, rfl⟩
    · obtain ⟨before, after, rfl, same⟩ := ih h
      exact ⟨c :: before, after, rfl, same⟩

end TemplateVm
