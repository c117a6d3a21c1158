set_option autoImplicit false

/-!
# Acting on a part of the state
-/
namespace TemplateVm

/-- Runs an action on a part of the state. The part is taken out while the action runs, so that it
    is updated in place. -/
@[inline] def zoom {ε σ τ α : Type} [Inhabited τ] (part : σ → τ) (replace : τ → σ → σ)
    (action : EStateM ε τ α) : EStateM ε σ α := fun s =>
  let t := part s
  let s := replace default s
  match action t with
  | .ok a t => .ok a (replace t s)
  | .error e t => .error e (replace t s)

end TemplateVm
