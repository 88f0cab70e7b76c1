-- SUMMARY: What rendering one stage does to a device renderer, and when a blur on it fails.
import SeparableBlur.Gpu.Renderer
import SeparableBlur.Proofs.Pool
import SeparableBlur.Proofs.Render
import SeparableBlur.Proofs.Target

/-!
# Stages on the device renderer

A stage that is refused leaves no trace. One that is accepted takes its target
from the pool and changes caches, and nothing else about the renderer.

All stages of a blur have the same target size, which is never empty, and the
blurring ones carry their kernel. So either the first stage is refused, because
the target is too large, or none is.
-/

namespace SeparableBlur.Gpu

namespace Host

/-! ## One stage -/

/-- What an accepted stage of this size does to a host. -/
structure Draws (host : Host) (size : Size) (target : Texture) (after : Host) : Prop where
  target : target = (host.renderer.pool.allocate host.ids (host.renderer.targetKey size)).texture
  pool : after.renderer.pool =
    (host.renderer.pool.allocate host.ids (host.renderer.targetKey size)).pool
  ids : (host.renderer.pool.allocate host.ids (host.renderer.targetKey size)).ids.next ≤
    after.ids.next
  settings : after.renderer.settings = host.renderer.settings
  capabilities : after.renderer.capabilities = host.renderer.capabilities
  maxDimension : after.renderer.maxDimension = host.renderer.maxDimension

theorem sampler_ids (b : Bindings) (ids : Identities) (descriptor : Sampler) :
    ids.next ≤ (b.sampler ids descriptor).2.2.next := by
  unfold Bindings.sampler
  split
  · exact Nat.le_refl _
  · exact Nat.le_succ _

theorem bind_ids (b : Bindings) (ids : Identities) (texture : Texture) (descriptor : Sampler) :
    ids.next ≤ (b.bind ids texture descriptor).2.2.next := by
  have hsampler := sampler_ids b ids descriptor
  simp only [Bindings.bind]
  split <;> exact hsampler

/-- The target that the host has for a stage. -/
def allocation (host : Host) (subpass : Subpass Binary32 Texture) : Allocation :=
  host.renderer.pool.allocate host.ids (host.renderer.targetKey subpass.size)

/-- The binding that the host has for a stage, and the caches after it is made. -/
def bound (host : Host) (subpass : Subpass Binary32 Texture) : Binding × Bindings × Identities :=
  host.renderer.bindings.bind (host.allocation subpass).ids subpass.input subpass.sampler

/-- The pipeline that the host has for a pass. -/
def pipelineKey (host : Host) (pass : Pass Binary32) : PipelineKey :=
  ⟨pass.pipeline, pass.primitive, host.renderer.settings.format⟩

/-- The host after an accepted stage. -/
def drawn (host : Host) (subpass : Subpass Binary32 Texture) : Host where
  ids := (host.bound subpass).2.2
  renderer := { host.renderer with
    pool := (host.allocation subpass).pool
    bindings := (host.bound subpass).2.1
    pipelines :=
      if host.pipelineKey subpass.toPass ∈ host.renderer.pipelines then host.renderer.pipelines
      else host.renderer.pipelines ++ [host.pipelineKey subpass.toPass] }

/-- What is logged about an accepted stage. -/
def report (host : Host) (subpass : Subpass Binary32 Texture) : List (Event Binary32) :=
  .rendering subpass.label subpass.pipeline subpass.size ::
    ((if (host.allocation subpass).created then
        [.creating (host.renderer.label subpass.label) subpass.size] else []) ++
      (if host.pipelineKey subpass.toPass ∈ host.renderer.pipelines then []
        else [.compiling subpass.pipeline subpass.primitive host.renderer.settings.format]))

variable (s : Logged Binary32 Host)

theorem runFrom_takeTarget (label : String) (key : TextureKey) :
    (takeTarget label key).runFrom s =
      (.ok (s.state.renderer.pool.allocate s.state.ids key).texture,
        ⟨⟨(s.state.renderer.pool.allocate s.state.ids key).ids,
          { s.state.renderer with pool := (s.state.renderer.pool.allocate s.state.ids key).pool }⟩,
        s.log ++ (if (s.state.renderer.pool.allocate s.state.ids key).created then
          [.creating label key.size] else [])⟩) := by
  simp only [takeTarget, Action.runFrom_bind, Action.runFrom_state, Action.runFrom_setState]
  split
  · rfl
  · rw [List.append_nil]
    rfl

theorem runFrom_getPipeline (key : PipelineKey) :
    (getPipeline key).runFrom s =
      (.ok (), ⟨{ s.state with renderer := { s.state.renderer with
          pipelines := if key ∈ s.state.renderer.pipelines then s.state.renderer.pipelines
            else s.state.renderer.pipelines ++ [key] } },
        s.log ++ (if key ∈ s.state.renderer.pipelines then []
          else [.compiling key.pipeline key.primitive key.format])⟩) := by
  simp only [getPipeline, Action.runFrom_bind, Action.runFrom_state]
  split
  · rw [List.append_nil]
    rfl
  · rfl

variable (subpass : Subpass Binary32 Texture)

theorem runFrom_prepare_refused {e : RenderError}
    (h : s.state.renderer.refusal? subpass.toPass = some e) :
    (prepare subpass).runFrom s = (.error e, s) := by
  simp only [prepare, Action.runFrom_bind, Action.runFrom_state, h, Action.runFrom_throw]

theorem runFrom_runSubpass_refused {e : RenderError}
    (h : s.state.renderer.refusal? subpass.toPass = some e) :
    (runSubpass subpass).runFrom s = (.error e, s) := by
  have hprepare := runFrom_prepare_refused s subpass h
  rw [runSubpass, Action.runFrom_bind_error hprepare]

/-- What an accepted stage is drawn with, and what it does to the host. -/
theorem runFrom_prepare_accepted (h : s.state.renderer.refusal? subpass.toPass = none) :
    ∃ draw, (prepare subpass).runFrom s =
        (.ok draw, ⟨s.state.drawn subpass, s.log ++ s.state.report subpass⟩) ∧
      draw.target = (s.state.allocation subpass).texture ∧
      draw.binding = (s.state.bound subpass).1 := by
  let draw : Draw :=
    { label := s.state.renderer.label subpass.label
      target := (s.state.allocation subpass).texture
      pipeline := s.state.pipelineKey subpass.toPass
      binding := (s.state.bound subpass).1
      uniforms := uniforms subpass.toPass
      vertices := subpass.vertices.toList.flatMap fun v => (v.map Binary32.word).bytes }
  refine ⟨draw, ?_, rfl, rfl⟩
  simp only [prepare, Action.runFrom_bind, Action.runFrom_state, h, Action.runFrom_emit,
    Action.runFrom_pure, runFrom_takeTarget, bindInput, Action.runFrom_setState,
    runFrom_getPipeline, report, List.append_assoc, List.singleton_append]
  rfl

theorem runFrom_runSubpass_drawn (h : s.state.renderer.refusal? subpass.toPass = none) :
    (runSubpass subpass).runFrom s =
      (.ok (s.state.allocation subpass).texture,
        ⟨s.state.drawn subpass, s.log ++ s.state.report subpass⟩) := by
  obtain ⟨draw, hprepare, htarget, -⟩ := runFrom_prepare_accepted s subpass h
  rw [runSubpass, Action.runFrom_bind_ok hprepare, htarget]
  rfl

theorem draws_drawn (host : Host) :
    host.Draws subpass.size (host.allocation subpass).texture (host.drawn subpass) where
  target := rfl
  pool := rfl
  ids := bind_ids host.renderer.bindings (host.allocation subpass).ids subpass.input subpass.sampler
  settings := rfl
  capabilities := rfl
  maxDimension := rfl

theorem runFrom_runSubpass_accepted (h : s.state.renderer.refusal? subpass.toPass = none) :
    ∃ target after, (runSubpass subpass).runFrom s = (.ok target, after) ∧
      s.state.Draws subpass.size target after.state :=
  ⟨_, _, runFrom_runSubpass_drawn s subpass h, draws_drawn subpass s.state⟩

theorem Draws.activeCount {host after : Host} {size : Size} {target : Texture}
    (h : host.Draws size target after) :
    after.renderer.pool.activeCount = host.renderer.pool.activeCount + 1 := by
  rw [h.pool, Pool.activeCount_allocate]

end Host

/-! ## A chain of stages -/

/-- The stages that are accepted where textures may have up to `limit` pixels on an axis. -/
structure Accepts (limit : UInt32) (pass : Pass Binary32) : Prop where
  size : pass.size.isEmpty = false
  fits : ¬(limit < pass.size.width ∨ limit < pass.size.height)
  kernel : ¬(pass.pipeline ≠ .fill ∧ pass.kernel.isNone)

theorem Accepts.refusal?_eq_none {r : Renderer} {pass : Pass Binary32}
    (h : Accepts r.maxDimension pass) : r.refusal? pass = none := by
  unfold Renderer.refusal?
  rw [if_neg (by simp [h.size]), if_neg h.fits, if_neg h.kernel]

theorem refusal?_of_exceeds {r : Renderer} {pass : Pass Binary32}
    (hsize : pass.size.isEmpty = false)
    (h : r.maxDimension < pass.size.width ∨ r.maxDimension < pass.size.height) :
    r.refusal? pass = some (.subpassFailed pass.label (.exceedsLimit pass.size r.maxDimension)) := by
  unfold Renderer.refusal?
  rw [if_neg (by simp [hsize]), if_pos h]

section

variable {s final : Host} {t : Texture} {passes : List (Pass Binary32)}
  {calls : List (Call Binary32 Texture)} {outcome : Except RenderError Texture}

/-- Accepted stages are all rendered, and each takes one target. -/
theorem chained_accepted (h : Chained Host.subpassRenderer s t passes calls outcome final)
    (haccepts : ∀ pass ∈ passes, Accepts s.renderer.maxDimension pass) :
    (∃ target, outcome = .ok target) ∧
      final.renderer.pool.activeCount = s.renderer.pool.activeCount + calls.length := by
  induction h with
  | done => exact ⟨⟨_, rfl⟩, rfl⟩
  | @failed s t pass passes e log after hrun =>
    have hpass := haccepts pass List.mem_cons_self
    obtain ⟨_, _, hok, -⟩ := Host.runFrom_runSubpass_accepted ⟨s, log⟩ ⟨pass, t⟩
      hpass.refusal?_eq_none
    cases hrun.symm.trans hok
  | @rendered s t pass passes target calls outcome final log after hrun _ ih =>
    have hpass := haccepts pass List.mem_cons_self
    obtain ⟨_, _, hok, hdraws⟩ := Host.runFrom_runSubpass_accepted ⟨s, log⟩ ⟨pass, t⟩
      hpass.refusal?_eq_none
    cases hrun.symm.trans hok
    rw [hdraws.maxDimension] at ih
    obtain ⟨houtcome, hcount⟩ := ih fun p hp => haccepts p (List.mem_cons_of_mem _ hp)
    have hstep : after.state.renderer.pool.activeCount = s.renderer.pool.activeCount + 1 :=
      hdraws.activeCount
    refine ⟨houtcome, ?_⟩
    rw [hcount, hstep, List.length_cons]
    omega

/-- If the first stage is refused, that is all that happens. -/
theorem chained_refused {pass : Pass Binary32} {e : RenderError}
    (h : Chained Host.subpassRenderer s t (pass :: passes) calls outcome final)
    (hrefused : s.renderer.refusal? pass = some e) : outcome = .error e ∧ final = s := by
  cases h with
  | @failed _ _ _ _ _ log _ hrun =>
    have hrefusal := Host.runFrom_runSubpass_refused ⟨s, log⟩ ⟨pass, t⟩ hrefused
    cases hrun.symm.trans hrefusal
    exact ⟨rfl, rfl⟩
  | @rendered _ _ _ _ _ _ _ _ log _ hrun _ =>
    have hrefusal := Host.runFrom_runSubpass_refused ⟨s, log⟩ ⟨pass, t⟩ hrefused
    cases hrun.symm.trans hrefusal

end

/-! ## Blurs of textures -/

/-- The blur is visible, its first input has pixels, and `target`, the size of its targets, is
    more than the device allows. -/
def Oversized (b : Blur Binary32) (inputs : List (Texture × Matrix4 Binary32)) (limit : UInt32)
    (target : Size) : Prop :=
  ∃ first rest, inputs = first :: rest ∧ first.1.size.isEmpty = false ∧
    b.extent.isNoop = false ∧ target = (b.target first.1.size).size ∧
    (limit < target.width ∨ limit < target.height)

theorem oversized_cons (b : Blur Binary32) (first : Texture × Matrix4 Binary32)
    (rest : List (Texture × Matrix4 Binary32)) (limit : UInt32) (target : Size) :
    Oversized b (first :: rest) limit target ↔
      first.1.size.isEmpty = false ∧ b.extent.isNoop = false ∧
        target = (b.target first.1.size).size ∧ (limit < target.width ∨ limit < target.height) := by
  constructor
  · rintro ⟨_, _, heq, h⟩
    cases heq
    exact h
  · intro h
    exact ⟨first, rest, rfl, h⟩

theorem accepts_copy {pass : Pass Binary32} {target : Size} {limit : UInt32}
    (h : pass.IsCopy target) (hsize : target.isEmpty = false)
    (hfits : ¬(limit < target.width ∨ limit < target.height)) : Accepts limit pass :=
  ⟨h.size ▸ hsize, h.size ▸ hfits, by simp [h.pipeline]⟩

theorem accepts_blur {pass : Pass Binary32} {text : String} {target : Size} {program : Pipeline}
    {axis : AxisKernel Binary32} {limit : UInt32} (h : pass.IsBlur text target program axis)
    (hsize : target.isEmpty = false)
    (hfits : ¬(limit < target.width ∨ limit < target.height)) : Accepts limit pass :=
  ⟨h.size ▸ hsize, h.size ▸ hfits, by simp [h.kernel]⟩

/-- What the stages of a blur come to: all or nothing. -/
theorem issues_cases {b : Blur Binary32} {entity : Entity Binary32}
    {snapshot : Snapshot Binary32 Texture} {s final : Host} {calls : List (Call Binary32 Texture)}
    {result : Except RenderError (Option (Output Binary32 Texture))}
    (h : b.Issues Host.subpassRenderer entity snapshot s calls result final) :
    let limit := s.renderer.maxDimension
    let target := (b.target snapshot.texture.size).size
    if limit < target.width ∨ limit < target.height then
      result = .error (.subpassFailed "Gaussian Blur Downsample" (.exceedsLimit target limit)) ∧
        final = s
    else
      (∃ output, result = .ok output) ∧
        final.renderer.pool.activeCount = s.renderer.pool.activeCount + calls.length := by
  obtain ⟨down, passes, outcome, hdown, hpasses, hchain, rfl⟩ := h.chain
  have hsize := b.isEmpty_target snapshot.texture.size
  dsimp only
  split
  case isTrue hexceeds =>
    have hrefused := refusal?_of_exceeds (r := s.renderer) (hdown.size ▸ hsize)
      (hdown.size ▸ hexceeds)
    obtain ⟨rfl, rfl⟩ := chained_refused hchain hrefused
    rw [hdown.label, hdown.size]
    exact ⟨rfl, rfl⟩
  case isFalse hfits =>
    have haccepts : ∀ pass ∈ down :: passes, Accepts s.renderer.maxDimension pass := by
      refine List.forall_mem_cons.2 ⟨accepts_copy hdown hsize hfits, fun pass hpass => ?_⟩
      obtain ⟨_, _, -, -, hblur⟩ := hpasses pass hpass
      exact accepts_blur hblur hsize hfits
    obtain ⟨⟨texture, rfl⟩, hcount⟩ := chained_accepted hchain haccepts
    exact ⟨⟨_, rfl⟩, hcount⟩

/-- The inputs for some textures with their placements. -/
def textureInputs (inputs : List (Texture × Matrix4 Binary32)) :
    List (FilterInput Binary32 Host Texture) :=
  inputs.map fun (texture, placement) => .ofTexture texture texture.size placement

/-- A blur of textures fails exactly when its targets would be too large. It then fails at the
    first stage and leaves the renderer as it was; otherwise each call takes one target. -/
theorem render_textures (b : Blur Binary32) (inputs : List (Texture × Matrix4 Binary32))
    (entity : Entity Binary32) (effect : Matrix4 Binary32) (hint : Option (Rect Binary32))
    (s : Logged Binary32 Host) :
    let render := b.render Host.subpassRenderer (textureInputs inputs) entity effect hint
    let calls := b.calls Host.subpassRenderer (textureInputs inputs) entity effect hint s
    let result := (render.runFrom s).1
    let final := (render.runFrom s).2.state
    let limit := s.state.renderer.maxDimension
    ((∃ e, result = .error e) ↔ ∃ target, Oversized b inputs limit target) ∧
    (∀ target, Oversized b inputs limit target →
      result = .error (.subpassFailed "Gaussian Blur Downsample" (.exceedsLimit target limit)) ∧
        final = s.state) ∧
    ((∃ output, result = .ok output) →
      final.renderer.pool.activeCount = s.state.renderer.pool.activeCount + calls.length) := by
  obtain ⟨calls, result, final, log, hcalls, hrun, h⟩ :=
    b.renders Host.subpassRenderer entity (textureInputs inputs) effect hint s
  dsimp only
  rw [hcalls, hrun]
  cases inputs with
  | nil =>
    cases h with
    | noInput => simp [Oversized]
  | cons input inputs =>
    cases h with
    | failed hsnapshot => cases hsnapshot
    | nothing hsnapshot => cases hsnapshot
    | empty hsnapshot hsize =>
      cases hsnapshot
      have hpixels : input.1.size.isEmpty = true := hsize
      simp [oversized_cons, hpixels]
    | weak hsnapshot hsize hnoop =>
      cases hsnapshot
      simp [oversized_cons, hnoop]
    | blurred hsnapshot hsize hnoop hissues =>
      cases hsnapshot
      have hpixels : input.1.size.isEmpty = false := hsize
      have hcases := issues_cases hissues
      simp only [oversized_cons, hpixels, hnoop, true_and]
      dsimp only at hcases
      generalize (b.target input.1.size).size = size at hcases ⊢
      split at hcases
      case isTrue hexceeds =>
        obtain ⟨rfl, rfl⟩ := hcases
        refine ⟨⟨fun _ => ⟨size, rfl, hexceeds⟩, fun _ => ⟨_, rfl⟩⟩, ?_, ?_⟩
        · rintro target ⟨rfl, -⟩
          exact ⟨rfl, rfl⟩
        · rintro ⟨_, hok⟩
          cases hok
      case isFalse hfits =>
        obtain ⟨⟨output, rfl⟩, hcount⟩ := hcases
        refine ⟨⟨?_, ?_⟩, ?_, fun _ => hcount⟩
        · rintro ⟨_, herror⟩
          cases herror
        · rintro ⟨target, rfl, hexceeds⟩
          exact absurd hexceeds hfits
        · rintro target ⟨rfl, hexceeds⟩
          exact absurd hexceeds hfits

end SeparableBlur.Gpu
