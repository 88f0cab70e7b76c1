-- SUMMARY: The calls of a blur: which stages it asks for, in which order, what each reads and what comes of them.
import SeparableBlur.Proofs.Calls

/-!
# The calls of a blur

A blur makes a chain of calls. The first copies the source, and each of the others
blurs what the one before it rendered along one axis, unless that axis is too weak
to be visible. The chain ends at the first call that fails.
-/

namespace SeparableBlur

variable {α σ τ : Type}

/-! ## Chains -/

/-- `Chained r s t passes calls outcome s'`: from the state `s` and the texture `t`, the passes
    were asked for one after the other, each reading the texture that the one before it
    returned, up to the first failure. That took the renderer to the state `s'`. -/
inductive Chained (r : SubpassRenderer α σ τ) :
    σ → τ → List (Pass α) → List (Call α τ) → Except RenderError τ → σ → Prop where
  | done {s t} : Chained r s t [] [] (.ok t) s
  | failed {s t pass passes e log after} :
      (r.run ⟨pass, t⟩).runFrom ⟨s, log⟩ = (.error e, after) →
      Chained r s t (pass :: passes) [⟨⟨pass, t⟩, .error e⟩] (.error e) after.state
  | rendered {s t pass passes target calls outcome final log after} :
      (r.run ⟨pass, t⟩).runFrom ⟨s, log⟩ = (.ok target, after) →
      Chained r after.state target passes calls outcome final →
      Chained r s t (pass :: passes) (⟨⟨pass, t⟩, .ok target⟩ :: calls) outcome final

/-- The passes that are rendered. -/
def Stage.passes : List (Stage α) → List (Pass α)
  | [] => []
  | .draw pass :: stages => pass :: passes stages
  | .skip _ :: stages => passes stages

/-- A pass is rendered for each stage that draws one. -/
theorem Stage.mem_passes {stages : List (Stage α)} {pass : Pass α} :
    pass ∈ Stage.passes stages ↔ .draw pass ∈ stages := by
  induction stages with
  | nil => simp [Stage.passes]
  | cons stage stages ih =>
    cases stage with
    | draw drawn => simp [Stage.passes, ih]
    | skip label => simp [Stage.passes, ih]

/-- The stages are done in a chain of calls. -/
theorem Stage.foldlM_chained (r : SubpassRenderer α σ τ) (stages : List (Stage α)) (t : τ)
    (s : Logged α (Watched α σ τ)) :
    ∃ calls, ∃ outcome after,
      (stages.foldlM (Stage.run r.watched) t).runFrom s = (outcome, after) ∧
      after.state.calls = s.state.calls ++ calls ∧
      Chained r s.state.state t (Stage.passes stages) calls outcome after.state.state := by
  induction stages generalizing t s with
  | nil => exact ⟨[], .ok t, s, rfl, by simp, .done⟩
  | cons stage stages ih =>
    rw [List.foldlM_cons]
    cases stage with
    | skip label =>
      have hskip : (Stage.run r.watched t (.skip label)).runFrom s =
          (.ok t, ⟨s.state, s.log ++ [.skipped label]⟩) := rfl
      rw [Action.runFrom_bind_ok hskip]
      exact ih t _
    | draw pass =>
      cases hanswer : (r.run ⟨pass, t⟩).runFrom s.unwatched with
      | mk answer after =>
        have hrun : (Stage.run r.watched t (.draw pass)).runFrom s = _ :=
          SubpassRenderer.runFrom_watched hanswer
        cases answer with
        | error e =>
          rw [Action.runFrom_bind_error hrun]
          exact ⟨_, _, _, rfl, rfl, .failed hanswer⟩
        | ok target =>
          rw [Action.runFrom_bind_ok hrun]
          obtain ⟨calls, outcome, final, hfold, hcalls, hchain⟩ := ih target
            ⟨⟨after.state, s.state.calls ++ [⟨⟨pass, t⟩, .ok target⟩]⟩, after.log⟩
          refine ⟨⟨⟨pass, t⟩, .ok target⟩ :: calls, outcome, final, hfold, ?_, ?_⟩
          · rw [hcalls, List.append_assoc, List.singleton_append]
          · exact .rendered hanswer hchain

theorem Chained.pass_mem {r : SubpassRenderer α σ τ} {s s' : σ} {t : τ} {passes : List (Pass α)}
    {calls : List (Call α τ)} {outcome : Except RenderError τ}
    (h : Chained r s t passes calls outcome s') :
    ∀ call ∈ calls, call.subpass.toPass ∈ passes := by
  induction h with
  | done => simp
  | failed => simp
  | rendered _ _ ih =>
    simp only [List.forall_mem_cons]
    exact ⟨List.mem_cons_self, fun call hcall => List.mem_cons_of_mem _ (ih call hcall)⟩

/-! ## Passes -/

/-- A copy of the source into a target of this size. -/
structure Pass.IsCopy (pass : Pass α) (target : Size) : Prop where
  label : pass.label = "Gaussian Blur Downsample"
  size : pass.size = target
  pipeline : pass.pipeline = .fill
  kernel : pass.kernel = none

/-- A blur along one axis into a target of this size. -/
structure Pass.IsBlur (pass : Pass α) (text : String) (target : Size) (program : Pipeline)
    (axis : AxisKernel α) : Prop where
  label : pass.label = text
  size : pass.size = target
  pipeline : pass.pipeline = program
  kernel : pass.kernel = some axis

/-! ## Blurs -/

namespace Blur

variable [Scalar α]

/-- What a blur does with a snapshot that has pixels to blur, on a renderer in the state `s`. -/
def Issues (b : Blur α) (r : SubpassRenderer α σ τ) (entity : Entity α) (snapshot : Snapshot α τ)
    (s : σ) (calls : List (Call α τ)) (result : Except RenderError (Option (Output α τ)))
    (final : σ) : Prop :=
  let source := r.size snapshot.texture
  let target := b.target source
  let sigma := b.extent.sigma
  let radius := b.extent.radius
  let program := b.pipeline (r.capabilities s)
  ∃ down vertical horizontal outcome,
    down.IsCopy target.size ∧
    vertical.IsBlur "Gaussian Blur Vertical" target.size program
      ⟨⟨0, 1 / Scalar.ofUInt32 target.size.height⟩, sigma.y * target.achieved.y,
        radius.y * target.achieved.y, 1⟩ ∧
    horizontal.IsBlur "Gaussian Blur Horizontal" target.size program
      ⟨⟨1 / Scalar.ofUInt32 target.size.width, 0⟩, sigma.x * target.achieved.x,
        radius.x * target.achieved.x, 1⟩ ∧
    Chained r s snapshot.texture
      (down ::
        ((if sigma.y * target.achieved.y < Kernel.epsilon then [] else [vertical]) ++
          (if sigma.x * target.achieved.x < Kernel.epsilon then [] else [horizontal])))
      calls outcome final ∧
    result = outcome.map fun texture =>
      some (.ofSnapshot ⟨texture, b.placement source snapshot.transform, .linearClamp,
        snapshot.opacity⟩ entity)

/-- The chain starts with the copy of the source, and what follows are blurs along axes that are
    strong enough. -/
theorem Issues.chain {b : Blur α} {r : SubpassRenderer α σ τ} {entity : Entity α}
    {snapshot : Snapshot α τ} {s final : σ} {calls : List (Call α τ)}
    {result : Except RenderError (Option (Output α τ))}
    (h : b.Issues r entity snapshot s calls result final) :
    ∃ down passes outcome,
      down.IsCopy (b.target (r.size snapshot.texture)).size ∧
      (∀ pass ∈ passes, ∃ text kernel,
        (kernel = b.verticalKernel (r.size snapshot.texture) ∨
          kernel = b.horizontalKernel (r.size snapshot.texture)) ∧
        ¬kernel.sigma < Kernel.epsilon ∧
        pass.IsBlur text (b.target (r.size snapshot.texture)).size
          (b.pipeline (r.capabilities s)) kernel) ∧
      Chained r s snapshot.texture (down :: passes) calls outcome final ∧
      result = outcome.map fun texture =>
        some (.ofSnapshot ⟨texture, b.placement (r.size snapshot.texture) snapshot.transform,
          .linearClamp, snapshot.opacity⟩ entity) := by
  obtain ⟨down, vertical, horizontal, outcome, hdown, hvertical, hhorizontal, hchain, hresult⟩ := h
  refine ⟨down, _, outcome, hdown, ?_, hchain, hresult⟩
  rw [List.forall_mem_append]
  constructor
  · split
    · simp
    · rename_i hsigma
      simp only [List.forall_mem_singleton]
      exact ⟨_, _, .inl rfl, hsigma, hvertical⟩
  · split
    · simp
    · rename_i hsigma
      simp only [List.forall_mem_singleton]
      exact ⟨_, _, .inr rfl, hsigma, hhorizontal⟩

theorem passes_stages (b : Blur α) (capabilities : Capabilities) (source : Source α) :
    ∃ down vertical horizontal,
      down.IsCopy (b.target source.size).size ∧
      vertical.IsBlur "Gaussian Blur Vertical" (b.target source.size).size
        (b.pipeline capabilities) (b.verticalKernel source.size) ∧
      horizontal.IsBlur "Gaussian Blur Horizontal" (b.target source.size).size
        (b.pipeline capabilities) (b.horizontalKernel source.size) ∧
      Stage.passes (b.stages capabilities source) =
        down ::
          ((if (b.verticalKernel source.size).sigma < Kernel.epsilon then [] else [vertical]) ++
            (if (b.horizontalKernel source.size).sigma < Kernel.epsilon then []
              else [horizontal])) := by
  let axis (label : String) (kernel : AxisKernel α) : Pass α :=
    strip label (b.target source.size).size (b.pipeline capabilities) .unit (some kernel)
      (source.sampler.withFilter .linear)
  refine ⟨b.downsample capabilities source,
    axis "Gaussian Blur Vertical" (b.verticalKernel source.size),
    axis "Gaussian Blur Horizontal" (b.horizontalKernel source.size),
    ⟨rfl, rfl, rfl, rfl⟩, ⟨rfl, rfl, rfl, rfl⟩, ⟨rfl, rfl, rfl, rfl⟩, ?_⟩
  simp only [stages, axisStage, Stage.passes]
  split <;> split <;> rfl

/-- What is rendered for a snapshot, from the texture that its stages end with. -/
def blurredSnapshot (b : Blur α) (source : Size) (snapshot : Snapshot α τ) (texture : τ) :
    Snapshot α τ :=
  ⟨texture, b.placement source snapshot.transform, .linearClamp, snapshot.opacity⟩

/-- The stages of a blur on a watched renderer are its passes in a chain. -/
theorem renderStages_chained (b : Blur α) (r : SubpassRenderer α σ τ) (placement : Matrix4 α)
    (snapshot : Snapshot α τ) (s : Logged α (Watched α σ τ)) :
    let source : Source α := ⟨r.size snapshot.texture, placement, snapshot.sampler⟩
    ∃ calls outcome after,
      (b.renderStages r.watched placement snapshot).runFrom s =
        (outcome.map (b.blurredSnapshot source.size snapshot), after) ∧
      after.state.calls = s.state.calls ++ calls ∧
      Chained r s.state.state snapshot.texture
        (Stage.passes (b.stages (r.capabilities s.state.state) source)) calls outcome
        after.state.state := by
  intro source
  let stages := b.stages (r.capabilities s.state.state) source
  let planned : Event α := .planned source.size b.extent.padding (b.target source.size).size
    (b.target source.size).achieved
  obtain ⟨calls, outcome, after, hfold, hcalls, hchain⟩ :=
    Stage.foldlM_chained r stages snapshot.texture ⟨s.state, s.log ++ [planned]⟩
  refine ⟨calls, outcome, after, ?_, hcalls, hchain⟩
  have hrun : (b.renderStages r.watched placement snapshot).runFrom s =
      (stages.foldlM (Stage.run r.watched) snapshot.texture >>=
        fun texture => pure (b.blurredSnapshot source.size snapshot texture) :
          Action α (Watched α σ τ) (Snapshot α τ)).runFrom ⟨s.state, s.log ++ [planned]⟩ := rfl
  cases outcome with
  | error e => exact hrun.trans (Action.runFrom_bind_error hfold _)
  | ok texture => exact hrun.trans (Action.runFrom_bind_ok hfold _)

/-- The ways in which a rendering can go, from the state `s` of the renderer: the calls, the
    result, and the state it ends in. -/
inductive Renders (b : Blur α) (r : SubpassRenderer α σ τ) (entity : Entity α)
    (effect : Matrix4 α) (hint : Option (Rect α)) (s : Logged α σ) :
    List (FilterInput α σ τ) → List (Call α τ) → Except RenderError (Option (Output α τ)) → σ →
    Prop where
  | noInput : Renders b r entity effect hint s [] [] (.ok none) s.state
  | failed {input inputs e after} :
      (input.snapshot "Gaussian Blur Snapshot" entity (b.inputLimit entity effect hint)).runFrom s =
        (.error e, after) →
      Renders b r entity effect hint s (input :: inputs) [] (.error e) after.state
  | nothing {input inputs after} :
      (input.snapshot "Gaussian Blur Snapshot" entity (b.inputLimit entity effect hint)).runFrom s =
        (.ok none, after) →
      Renders b r entity effect hint s (input :: inputs) [] (.ok none) after.state
  | empty {input inputs snapshot after} :
      (input.snapshot "Gaussian Blur Snapshot" entity (b.inputLimit entity effect hint)).runFrom s =
        (.ok (some snapshot), after) →
      (r.size snapshot.texture).isEmpty = true →
      Renders b r entity effect hint s (input :: inputs) [] (.ok none) after.state
  | weak {input inputs snapshot after} :
      (input.snapshot "Gaussian Blur Snapshot" entity (b.inputLimit entity effect hint)).runFrom s =
        (.ok (some snapshot), after) →
      (r.size snapshot.texture).isEmpty = false →
      b.extent.isNoop = true →
      Renders b r entity effect hint s (input :: inputs) []
        (.ok (some (.ofSnapshot snapshot entity))) after.state
  | blurred {input inputs snapshot after calls result final} :
      (input.snapshot "Gaussian Blur Snapshot" entity (b.inputLimit entity effect hint)).runFrom s =
        (.ok (some snapshot), after) →
      (r.size snapshot.texture).isEmpty = false →
      b.extent.isNoop = false →
      b.Issues r entity snapshot after.state calls result final →
      Renders b r entity effect hint s (input :: inputs) calls result final

section

variable (b : Blur α) (r : SubpassRenderer α σ τ) (entity : Entity α)

theorem renderSnapshot_empty (placement : Matrix4 α) {snapshot : Snapshot α τ}
    (hsize : (r.size snapshot.texture).isEmpty = true) (s : Logged α σ) :
    ∃ log, (b.renderSnapshot r placement entity snapshot).runFrom s =
      (.ok none, ⟨s.state, log⟩) := by
  unfold renderSnapshot
  rw [if_pos hsize]
  exact ⟨_, rfl⟩

theorem renderSnapshot_weak (placement : Matrix4 α) {snapshot : Snapshot α τ}
    (hsize : (r.size snapshot.texture).isEmpty = false) (hnoop : b.extent.isNoop = true)
    (s : Logged α σ) :
    ∃ log, (b.renderSnapshot r placement entity snapshot).runFrom s =
      (.ok (some (.ofSnapshot snapshot entity)), ⟨s.state, log⟩) := by
  unfold renderSnapshot
  rw [if_neg (by simp [hsize]), if_pos hnoop]
  exact ⟨_, rfl⟩

theorem renderSnapshot_chained (placement : Matrix4 α) {snapshot : Snapshot α τ}
    (hsize : (r.size snapshot.texture).isEmpty = false) (hnoop : b.extent.isNoop = false)
    (s : Logged α (Watched α σ τ)) :
    let source : Source α := ⟨r.size snapshot.texture, placement, snapshot.sampler⟩
    ∃ calls outcome after,
      (b.renderSnapshot r.watched placement entity snapshot).runFrom s =
        (outcome.map fun texture =>
          some (.ofSnapshot (b.blurredSnapshot source.size snapshot texture) entity), after) ∧
      after.state.calls = s.state.calls ++ calls ∧
      Chained r s.state.state snapshot.texture
        (Stage.passes (b.stages (r.capabilities s.state.state) source)) calls outcome
        after.state.state := by
  intro source
  obtain ⟨calls, outcome, after, hrun, hcalls, hchain⟩ :=
    b.renderStages_chained r placement snapshot s
  refine ⟨calls, outcome, after, ?_, hcalls, hchain⟩
  have hpixels : (r.watched.size snapshot.texture).isEmpty = false := hsize
  unfold renderSnapshot
  rw [if_neg (by simp [hpixels]), if_neg (by simp [hnoop])]
  cases outcome with
  | error e => exact Action.runFrom_bind_error hrun _
  | ok texture => exact Action.runFrom_bind_ok hrun _

theorem renderSnapshot_blurred (placement : Matrix4 α) {snapshot : Snapshot α τ}
    (hsize : (r.size snapshot.texture).isEmpty = false) (hnoop : b.extent.isNoop = false)
    (s : Logged α (Watched α σ τ)) :
    ∃ calls result after,
      (b.renderSnapshot r.watched placement entity snapshot).runFrom s = (result, after) ∧
      after.state.calls = s.state.calls ++ calls ∧
      b.Issues r entity snapshot s.state.state calls result after.state.state := by
  obtain ⟨calls, outcome, after, hrun, hcalls, hchain⟩ :=
    b.renderSnapshot_chained r entity placement hsize hnoop s
  obtain ⟨down, vertical, horizontal, hdown, hvertical, hhorizontal, hpasses⟩ :=
    b.passes_stages (r.capabilities s.state.state)
      ⟨r.size snapshot.texture, placement, snapshot.sampler⟩
  rw [hpasses] at hchain
  exact ⟨calls, _, after, hrun, hcalls, down, vertical, horizontal, outcome, hdown, hvertical,
    hhorizontal, hchain, rfl⟩

/-- What a watched rendering comes to is what the rendering comes to. -/
theorem renders_of_watched {inputs : List (FilterInput α σ τ)} {effect : Matrix4 α}
    {hint : Option (Rect α)} {s : Logged α σ}
    {result : Except RenderError (Option (Output α τ))} {after : Logged α (Watched α σ τ)}
    (hrun : (b.render r.watched (inputs.map .unseen) entity effect hint).runFrom s.watched =
      (result, after))
    (h : b.Renders r entity effect hint s inputs after.state.calls result after.state.state) :
    ∃ calls result final log,
      b.calls r inputs entity effect hint s = calls ∧
      (b.render r inputs entity effect hint).runFrom s = (result, ⟨final, log⟩) ∧
      b.Renders r entity effect hint s inputs calls result final := by
  have hfollows : _ = (b.render r inputs entity effect hint).runFrom s :=
    b.render_follows r inputs entity effect hint s.watched
  rw [hrun] at hfollows
  refine ⟨_, _, _, _, ?_, hfollows.symm, h⟩
  rw [calls, hrun]

theorem renders (inputs : List (FilterInput α σ τ)) (effect : Matrix4 α)
    (hint : Option (Rect α)) (s : Logged α σ) :
    ∃ calls result final log,
      b.calls r inputs entity effect hint s = calls ∧
      (b.render r inputs entity effect hint).runFrom s = (result, ⟨final, log⟩) ∧
      b.Renders r entity effect hint s inputs calls result final := by
  cases inputs with
  | nil => exact renders_of_watched b r entity rfl .noInput
  | cons input inputs =>
    let limit := b.inputLimit entity effect hint
    let placement := input.localTransform entity
    cases hsnapshot : (input.snapshot "Gaussian Blur Snapshot" entity limit).runFrom s with
    | mk answer after =>
      have hunseen : (input.unseen.snapshot "Gaussian Blur Snapshot" entity limit).runFrom
          (s.watched : Logged α (Watched α σ τ)) = _ := Action.runFrom_unseen hsnapshot
      cases answer with
      | error e =>
        refine renders_of_watched b r entity (Action.runFrom_bind_error hunseen _) ?_
        exact .failed hsnapshot
      | ok snapshot =>
        cases snapshot with
        | none =>
          refine renders_of_watched b r entity (Action.runFrom_bind_ok hunseen _) ?_
          exact .nothing hsnapshot
        | some snapshot =>
          cases hsize : (r.size snapshot.texture).isEmpty with
          | true =>
            obtain ⟨log, hempty⟩ := b.renderSnapshot_empty r.watched entity placement hsize
              ⟨⟨after.state, []⟩, after.log⟩
            refine renders_of_watched b r entity
              ((Action.runFrom_bind_ok hunseen _).trans hempty) ?_
            exact .empty hsnapshot hsize
          | false =>
            cases hnoop : b.extent.isNoop with
            | true =>
              obtain ⟨log, hweak⟩ := b.renderSnapshot_weak r.watched entity placement hsize hnoop
                ⟨⟨after.state, []⟩, after.log⟩
              refine renders_of_watched b r entity
                ((Action.runFrom_bind_ok hunseen _).trans hweak) ?_
              exact .weak hsnapshot hsize hnoop
            | false =>
              obtain ⟨calls, result, final, hrun, hcalls, hissues⟩ := b.renderSnapshot_blurred r
                entity placement hsize hnoop ⟨⟨after.state, []⟩, after.log⟩
              refine renders_of_watched b r entity
                ((Action.runFrom_bind_ok hunseen _).trans hrun) ?_
              rw [hcalls]
              exact .blurred hsnapshot hsize hnoop hissues

section

variable (t : τ) (size : Size) (placement : Matrix4 α) (rest : List (FilterInput α σ τ))
  (effect : Matrix4 α) (hint : Option (Rect α)) (s : Logged α σ)

theorem runFrom_render_ofTexture :
    (b.render r (.ofTexture t size placement :: rest) entity effect hint).runFrom s =
      (b.renderSnapshot r placement entity
        ⟨t, entity.transform * placement, .linearClamp, 1⟩).runFrom s := rfl

theorem calls_ofTexture :
    b.calls r (.ofTexture t size placement :: rest) entity effect hint s =
      ((b.renderSnapshot r.watched placement entity
        ⟨t, entity.transform * placement, .linearClamp, 1⟩).runFrom s.watched).2.state.calls := rfl

end

/-- A visible blur of a texture with pixels comes to its passes in a chain of calls. -/
theorem render_ofTexture {t : τ} (placement : Matrix4 α) (rest : List (FilterInput α σ τ))
    (effect : Matrix4 α) (hint : Option (Rect α)) (hsize : (r.size t).isEmpty = false)
    (hnoop : b.extent.isNoop = false) (s : Logged α σ) :
    let source : Source α := ⟨r.size t, placement, .linearClamp⟩
    let snapshot : Snapshot α τ := ⟨t, entity.transform * placement, .linearClamp, 1⟩
    let inputs := .ofTexture t (r.size t) placement :: rest
    ∃ outcome final,
      ((b.render r inputs entity effect hint).runFrom s).1 = outcome.map (fun texture =>
        some (.ofSnapshot (b.blurredSnapshot source.size snapshot texture) entity)) ∧
      Chained r s.state t (Stage.passes (b.stages (r.capabilities s.state) source))
        (b.calls r inputs entity effect hint s) outcome final := by
  intro source snapshot inputs
  have hpixels : (r.size snapshot.texture).isEmpty = false := hsize
  obtain ⟨calls, outcome, after, hrun, hcalls, hchain⟩ :=
    b.renderSnapshot_chained r entity placement hpixels hnoop
      (s.watched : Logged α (Watched α σ τ))
  have hfollows := b.render_follows r inputs entity effect hint s.watched
  have hwatched : (b.render r.watched (inputs.map .unseen) entity effect hint).runFrom s.watched =
      _ := hrun
  rw [hwatched] at hfollows
  refine ⟨outcome, after.state.state, ?_, ?_⟩
  · exact (congrArg Prod.fst hfollows).symm
  · rw [calls_ofTexture, hrun, hcalls]
    exact hchain

/-- The blur of a texture makes no call where the texture has no pixels or the blur is too weak to
    be visible. The first comes to nothing, and the second hands the texture on. -/
theorem render_ofTexture_idle {t : τ} (placement : Matrix4 α) (rest : List (FilterInput α σ τ))
    (effect : Matrix4 α) (hint : Option (Rect α))
    (hidle : (r.size t).isEmpty = true ∨ b.extent.isNoop = true) (s : Logged α σ) :
    let inputs := .ofTexture t (r.size t) placement :: rest
    b.calls r inputs entity effect hint s = [] ∧
      ((b.render r inputs entity effect hint).runFrom s).1 =
        .ok (if (r.size t).isEmpty then none
          else some (.ofSnapshot ⟨t, entity.transform * placement, .linearClamp, 1⟩ entity)) := by
  intro inputs
  let snapshot : Snapshot α τ := ⟨t, entity.transform * placement, .linearClamp, 1⟩
  rw [calls_ofTexture, runFrom_render_ofTexture]
  cases hsize : (r.size t).isEmpty with
  | true =>
    have hempty : (r.size snapshot.texture).isEmpty = true := hsize
    obtain ⟨log, hrender⟩ := b.renderSnapshot_empty r entity placement hempty s
    obtain ⟨log', hcalls⟩ := b.renderSnapshot_empty r.watched entity placement hempty s.watched
    rw [hrender, hcalls]
    exact ⟨rfl, rfl⟩
  | false =>
    have hpixels : (r.size snapshot.texture).isEmpty = false := hsize
    have hnoop : b.extent.isNoop = true := hidle.resolve_left (by simp [hsize])
    obtain ⟨log, hrender⟩ := b.renderSnapshot_weak r entity placement hpixels hnoop s
    obtain ⟨log', hcalls⟩ := b.renderSnapshot_weak r.watched entity placement hpixels hnoop
      s.watched
    rw [hrender, hcalls]
    exact ⟨rfl, rfl⟩

/-- A blur without an input, a snapshot or pixels makes no call, and neither does one that is too
    weak to be visible, which hands the snapshot on. Any other blur makes its chain of calls. -/
theorem render_calls (inputs : List (FilterInput α σ τ)) (effect : Matrix4 α)
    (hint : Option (Rect α)) (s : Logged α σ) :
    let calls := b.calls r inputs entity effect hint s
    let result := ((b.render r inputs entity effect hint).runFrom s).1
    let final := ((b.render r inputs entity effect hint).runFrom s).2.state
    match inputs with
    | [] => calls = [] ∧ result = .ok none
    | input :: _ =>
      match (input.snapshot "Gaussian Blur Snapshot" entity
        (b.inputLimit entity effect hint)).runFrom s with
      | (.error e, _) => calls = [] ∧ result = .error e
      | (.ok none, _) => calls = [] ∧ result = .ok none
      | (.ok (some snapshot), after) =>
        if (r.size snapshot.texture).isEmpty then calls = [] ∧ result = .ok none
        else if b.extent.isNoop then
          calls = [] ∧ result = .ok (some (.ofSnapshot snapshot entity))
        else b.Issues r entity snapshot after.state calls result final := by
  obtain ⟨calls, result, final, log, hcalls, hrun, h⟩ := b.renders r entity inputs effect hint s
  rw [hcalls, hrun]
  cases h with
  | noInput => exact ⟨rfl, rfl⟩
  | failed hsnapshot => simp [hsnapshot]
  | nothing hsnapshot => simp [hsnapshot]
  | empty hsnapshot hsize => simp [hsnapshot, hsize]
  | weak hsnapshot hsize hnoop => simp [hsnapshot, hsize, hnoop]
  | blurred hsnapshot hsize hnoop hissues => simpa [hsnapshot, hsize, hnoop] using hissues

end

end Blur

end SeparableBlur
