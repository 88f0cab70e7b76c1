-- SUMMARY: The calls a blur makes on its renderer, recorded next to the renderer's state.
import SeparableBlur.Blur.Render

/-!
# Recorded calls

A renderer can be watched: next to its state stands the list of the stages it was
asked to render, each with the answer it gave. `Blur.calls` is that list for one
rendering of a blur. Only what the blur itself asks for is recorded. Its inputs
work on the renderer that is watched, but unseen.

Nothing else changes by watching. `Blur.render_follows` says that the result, the
state and the log are those of the renderer as it is.
-/

namespace SeparableBlur

variable {α σ τ β γ : Type}

/-! ## Running actions -/

namespace Action

/-- What the action comes to, from a state with a log. -/
def runFrom (a : Action α σ β) (s : Logged α σ) : Except RenderError β × Logged α σ := a.run.run s

theorem start_eq_runFrom (a : Action α σ β) (t : σ) : a.start t = a.runFrom ⟨t, []⟩ := rfl

variable (s : Logged α σ)

@[simp] theorem runFrom_pure (b : β) : (pure b : Action α σ β).runFrom s = (.ok b, s) := rfl

@[simp] theorem runFrom_throw (e : RenderError) :
    (throw e : Action α σ β).runFrom s = (.error e, s) := rfl

@[simp] theorem runFrom_emit (e : Event α) :
    (emit e : Action α σ Unit).runFrom s = (.ok (), ⟨s.state, s.log ++ [e]⟩) := rfl

@[simp] theorem runFrom_state : (state : Action α σ σ).runFrom s = (.ok s.state, s) := rfl

@[simp] theorem runFrom_setState (t : σ) :
    (setState t : Action α σ Unit).runFrom s = (.ok (), ⟨t, s.log⟩) := rfl

theorem runFrom_bind (a : Action α σ β) (f : β → Action α σ γ) :
    (a >>= f).runFrom s =
      match a.runFrom s with
      | (.ok b, t) => (f b).runFrom t
      | (.error e, t) => (.error e, t) := by
  change (match a.runFrom s with | (r, t) => (ExceptT.bindCont f r).run t) = _
  rcases a.runFrom s with ⟨r | b, t⟩ <;> rfl

variable {s} {t : Logged α σ} {a : Action α σ β}

theorem runFrom_bind_ok {b : β} (h : a.runFrom s = (.ok b, t)) (f : β → Action α σ γ) :
    (a >>= f).runFrom s = (f b).runFrom t := by
  rw [runFrom_bind, h]

theorem runFrom_bind_error {e : RenderError} (h : a.runFrom s = (.error e, t))
    (f : β → Action α σ γ) : (a >>= f).runFrom s = (.error e, t) := by
  rw [runFrom_bind, h]

end Action

/-! ## Watched renderers -/

/-- A stage that was asked for, and what came of it. -/
structure Call (α τ : Type) where
  subpass : Subpass α τ
  answer : Except RenderError τ

/-- The state of a renderer and the calls that were made on it. -/
structure Watched (α σ τ : Type) where
  state : σ
  calls : List (Call α τ)

/-- The renderer's own state and log. -/
def Logged.unwatched (s : Logged α (Watched α σ τ)) : Logged α σ := ⟨s.state.state, s.log⟩

/-- Before the first call. -/
def Logged.watched (s : Logged α σ) : Logged α (Watched α σ τ) := ⟨⟨s.state, []⟩, s.log⟩

/-- Work on the renderer that is not recorded. -/
def Action.unseen (a : Action α σ β) : Action α (Watched α σ τ) β :=
  ExceptT.mk fun s =>
    let (result, after) := a.runFrom s.unwatched
    (result, ⟨⟨after.state, s.state.calls⟩, after.log⟩)

/-- The renderer with its calls recorded, failed ones included. -/
def SubpassRenderer.watched (r : SubpassRenderer α σ τ) :
    SubpassRenderer α (Watched α σ τ) τ where
  size := r.size
  capabilities w := r.capabilities w.state
  run subpass := ExceptT.mk fun s =>
    let (answer, after) := (r.run subpass).runFrom s.unwatched
    (answer, ⟨⟨after.state, s.state.calls ++ [⟨subpass, answer⟩]⟩, after.log⟩)

/-- An input whose own work is not recorded. -/
def FilterInput.unseen [Scalar α] (i : FilterInput α σ τ) : FilterInput α (Watched α σ τ) τ where
  snapshot label entity limit := (i.snapshot label entity limit).unseen
  coverage := i.coverage
  localTransform := i.localTransform
  transform := i.transform

/-- The calls that a rendering of the blur makes, on a renderer in the state `s`. -/
def Blur.calls [Scalar α] (b : Blur α) (r : SubpassRenderer α σ τ)
    (inputs : List (FilterInput α σ τ)) (entity : Entity α) (effect : Matrix4 α)
    (hint : Option (Rect α)) (s : Logged α σ) : List (Call α τ) :=
  let render := b.render r.watched (inputs.map .unseen) entity effect hint
  (render.runFrom s.watched).2.state.calls

variable {s : Logged α (Watched α σ τ)} {after : Logged α σ}

theorem Action.runFrom_unseen {a : Action α σ β} {result : Except RenderError β}
    (h : a.runFrom s.unwatched = (result, after)) :
    a.unseen.runFrom s = (result, ⟨⟨after.state, s.state.calls⟩, after.log⟩) := by
  let ran := a.runFrom s.unwatched
  have hrun : a.unseen.runFrom s =
      (ran.1, ⟨⟨ran.2.state, s.state.calls⟩, ran.2.log⟩) := rfl
  rw [hrun, show ran = (result, after) from h]

theorem SubpassRenderer.runFrom_watched {r : SubpassRenderer α σ τ} {subpass : Subpass α τ}
    {answer : Except RenderError τ} (h : (r.run subpass).runFrom s.unwatched = (answer, after)) :
    (r.watched.run subpass).runFrom s =
      (answer, ⟨⟨after.state, s.state.calls ++ [⟨subpass, answer⟩]⟩, after.log⟩) := by
  let ran := (r.run subpass).runFrom s.unwatched
  have hrun : (r.watched.run subpass).runFrom s =
      (ran.1, ⟨⟨ran.2.state, s.state.calls ++ [⟨subpass, ran.1⟩]⟩, ran.2.log⟩) := rfl
  rw [hrun, show ran = (answer, after) from h]

/-! ## Watching changes nothing -/

/-- Watched work that does on the renderer what `a` does. -/
def Action.Follows (w : Action α (Watched α σ τ) β) (a : Action α σ β) : Prop :=
  ∀ s, ((w.runFrom s).1, (w.runFrom s).2.unwatched) = a.runFrom s.unwatched

namespace Action.Follows

theorem pure (b : β) :
    Follows (Pure.pure b : Action α (Watched α σ τ) β) (Pure.pure b) :=
  fun _ => rfl

theorem emit (e : Event α) :
    Follows (Action.emit e : Action α (Watched α σ τ) Unit) (Action.emit e) :=
  fun _ => rfl

theorem unseen (a : Action α σ β) : Follows (a.unseen : Action α (Watched α σ τ) β) a :=
  fun _ => rfl

theorem run (r : SubpassRenderer α σ τ) (subpass : Subpass α τ) :
    Follows (r.watched.run subpass) (r.run subpass) :=
  fun _ => rfl

theorem bind {w : Action α (Watched α σ τ) β} {a : Action α σ β}
    {f : β → Action α (Watched α σ τ) γ} {g : β → Action α σ γ}
    (ha : w.Follows a) (hf : ∀ b, (f b).Follows (g b)) : (w >>= f).Follows (a >>= g) := by
  intro s
  have h := ha s
  simp only [runFrom_bind, ← h]
  rcases w.runFrom s with ⟨e | b, t⟩
  · rfl
  · exact hf b t

/-- What is read off the state of a watched renderer is read off its own state. -/
theorem state_bind {f : Watched α σ τ → Action α (Watched α σ τ) β} {g : σ → Action α σ β}
    (h : ∀ w, (f w).Follows (g w.state)) :
    (Action.state >>= f).Follows (Action.state >>= g) :=
  fun s => h s.state s

end Action.Follows

variable (r : SubpassRenderer α σ τ)

theorem Stage.run_follows (stage : Stage α) (texture : τ) :
    (Stage.run r.watched texture stage).Follows (Stage.run r texture stage) := by
  cases stage with
  | draw pass => exact .run r ⟨pass, texture⟩
  | skip label => exact .bind (.emit _) fun _ => .pure texture

theorem Stage.foldlM_follows (stages : List (Stage α)) (texture : τ) :
    (stages.foldlM (Stage.run r.watched) texture).Follows
      (stages.foldlM (Stage.run r) texture) := by
  induction stages generalizing texture with
  | nil => exact .pure texture
  | cons stage stages ih =>
    simp only [List.foldlM_cons]
    exact .bind (stage.run_follows r texture) fun next => ih next

namespace Blur

variable [Scalar α]

theorem renderSnapshot_follows (b : Blur α) (placement : Matrix4 α) (entity : Entity α)
    (snapshot : Snapshot α τ) :
    (b.renderSnapshot r.watched placement entity snapshot).Follows
      (b.renderSnapshot r placement entity snapshot) := by
  simp only [renderSnapshot, show r.watched.size = r.size from rfl]
  split
  · exact .bind (.emit _) fun _ => .pure none
  · split
    · exact .bind (.emit _) fun _ => .pure _
    · refine .bind (.state_bind fun w => ?_) fun _ => .pure _
      exact .bind (.emit _) fun _ => .bind (Stage.foldlM_follows r _ _) fun _ => .pure _

/-- A blur comes to the same result, state and log whether it is watched or not. -/
theorem render_follows (b : Blur α) (inputs : List (FilterInput α σ τ)) (entity : Entity α)
    (effect : Matrix4 α) (hint : Option (Rect α)) :
    (b.render r.watched (inputs.map .unseen) entity effect hint).Follows
      (b.render r inputs entity effect hint) := by
  cases inputs with
  | nil => exact .pure none
  | cons input _ =>
    refine .bind (.unseen _) fun snapshot => ?_
    cases snapshot with
    | none => exact .pure none
    | some snapshot => exact b.renderSnapshot_follows r _ entity snapshot

end Blur

end SeparableBlur
