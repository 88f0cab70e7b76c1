-- SUMMARY: Swapping the axes: the swapped blur of a swapped source is planned as the swapped passes and placed by the swapped transform.
import SeparableBlur.Proofs.KernelCost

/-!
# Symmetry of the axes

Nothing in a blur prefers one axis. With the sigmas of a blur and the sides of its
source exchanged, the plan is the same with the axes exchanged, the two blurring
stages included.

This holds for the numbers that are rendered, to the bit. Every step of the plan
treats the axes alike except two: a transform adds the products of its first two
columns, and a rounded sum of two numbers does not depend on their order; and the
smaller of the two resolutions is taken, where the order would matter only for
zeros and for what is not a number.
-/

namespace SeparableBlur

/-! ## Swapping -/

section

variable {α β γ : Type}

/-- The two axes exchanged. -/
def Vec2.swap (v : Vec2 α) : Vec2 α := ⟨v.y, v.x⟩

/-- Width and height exchanged. -/
def Size.swap (s : Size) : Size := ⟨s.height, s.width⟩

/-- The first two components exchanged. -/
def Vec4.swap (v : Vec4 α) : Vec4 α := ⟨v.y, v.x, v.z, v.w⟩

/-- The same transform with the axes of the plane exchanged, before and after it. -/
def Matrix4.swap (m : Matrix4 α) : Matrix4 α :=
  ⟨m.yAxis.swap, m.xAxis.swap, m.zAxis.swap, m.wAxis.swap⟩

/-- The corners reflected in the diagonal that starts at the top left, each moved by `f`. -/
def Corners.flip (f : β → γ) (q : Corners β) : Corners γ :=
  ⟨f q.topLeft, f q.bottomLeft, f q.topRight, f q.bottomRight⟩

def Vertex.swap (v : Vertex α) : Vertex α := ⟨v.position.swap, v.textureCoords.swap⟩

def AxisKernel.swap (k : AxisKernel α) : AxisKernel α := { k with uvOffset := k.uvOffset.swap }

def Sampler.swap (s : Sampler) : Sampler :=
  { s with widthMode := s.heightMode, heightMode := s.widthMode }

def Source.swap (s : Source α) : Source α := ⟨s.size.swap, s.placement.swap, s.sampler.swap⟩

/-- The pass with the axes of its target and of its texture exchanged. -/
def Pass.swap (p : Pass α) : Pass α :=
  { p with size := p.size.swap, vertices := p.vertices.flip Vertex.swap,
           kernel := p.kernel.map .swap, sampler := p.sampler.swap }

/-- The blur with its two sigmas exchanged. -/
def Blur.swap (b : Blur α) : Blur α := ⟨b.sigma.swap, b.tileMode⟩

end

/-! ## Geometry -/

section

variable {f : Format}

theorem Vec4.add_comm (v w : Vec4 (Binary f)) : v + w = w + v := by
  change Vec4.mk (v.x + w.x) (v.y + w.y) (v.z + w.z) (v.w + w.w) = ⟨_, _, _, _⟩
  rw [Binary.add_comm v.x, Binary.add_comm v.y, Binary.add_comm v.z, Binary.add_comm v.w]

namespace Matrix4

variable (m n : Matrix4 (Binary f))

theorem linear_swap (p : Vec2 (Binary f)) : m.swap.linear p.swap = (m.linear p).swap := by
  -- Only the first two products change places. Sums of more terms are not rearranged.
  have h := Vec4.add_comm (m.yAxis.swap.scale p.y) (m.xAxis.swap.scale p.x)
  exact congrArg (· + m.zAxis.swap.scale 0) h

theorem apply_swap (v : Vec4 (Binary f)) : m.swap.apply v.swap = (m.apply v).swap := by
  have h := Vec4.add_comm (m.yAxis.swap.scale v.y) (m.xAxis.swap.scale v.x)
  exact congrArg (· + m.zAxis.swap.scale v.z + m.wAxis.swap.scale v.w) h

theorem mul_swap : (m * n).swap = m.swap * n.swap := by
  change Matrix4.mk _ _ _ _ = ⟨m.swap.apply n.yAxis.swap, m.swap.apply n.xAxis.swap,
    m.swap.apply n.zAxis.swap, m.swap.apply n.wAxis.swap⟩
  simp only [apply_swap]
  rfl

theorem transformPoint_swap (p : Vec2 (Binary f)) :
    m.swap.transformPoint p.swap = (m.transformPoint p).swap := by
  simp only [transformPoint, linear_swap]
  rfl

theorem anchorScale_swap (anchor scale : Vec2 (Binary f)) :
    (anchorScale anchor scale).swap = anchorScale anchor.swap scale.swap := by
  simp only [anchorScale, mul_swap]
  rfl

end Matrix4

/-- The corners of the moved quad. -/
theorem Quad.transform_flip (q : Quad (Binary f)) (m : Matrix4 (Binary f)) :
    (q.transform m).flip Vec2.swap = Quad.transform (q.flip Vec2.swap) m.swap := by
  simp only [Quad.transform, Corners.flip, Corners.map, Matrix4.transformPoint_swap]

theorem Size.textureCoords_flip (s : Size) (placement : Matrix4 (Binary f)) :
    (s.textureCoords placement).flip Vec2.swap = s.swap.textureCoords placement.swap := by
  have h : (Quad.transform (Rect.ofSize s).corners placement).flip Vec2.swap =
    (Rect.ofSize s.swap).transformedCorners placement.swap :=
    Quad.transform_flip (Rect.ofSize s).corners placement
  exact congrArg (Corners.map (· / s.swap.toVec2)) h

theorem Quad.withGutter_flip (q : Quad (Binary f)) (s : Size) (padding : Vec2 (Binary f)) :
    (q.withGutter s padding).flip Vec2.swap =
      Quad.withGutter (q.flip Vec2.swap) s.swap padding.swap := by
  simp only [Quad.withGutter, Quad.transform_flip, Matrix4.anchorScale_swap]
  rfl

end

/-! ## Plans -/

/-- The resolution of a blur is the smaller of two positive numbers. -/
theorem Extent.resolution_swap (request : Vec2 Binary32) :
    (Extent.ofRequest request.swap).resolution = (Extent.ofRequest request).resolution := by
  obtain ⟨x, hx, hx0, hx92⟩ := Kernel.falloff_toRat? request.x
  obtain ⟨y, hy, hy0, hy92⟩ := Kernel.falloff_toRat? request.y
  obtain ⟨k, hk, hk0, -⟩ := Kernel.resolution_toRat? hx hx0 hx92
  obtain ⟨l, hl, hl0, -⟩ := Kernel.resolution_toRat? hy hy0 hy92
  exact Binary.minNumber_comm hl hk (by linarith) (by linarith)

theorem Extent.isNoop_swap {α : Type} [Scalar α] (request : Vec2 α) :
    (Extent.ofRequest request.swap).isNoop = (Extent.ofRequest request).isNoop :=
  Bool.and_comm _ _

/-- The passes of a blur by what they are for. A pass may be missing. -/
structure PassPlan (α : Type) where
  copy : Option (Pass α)
  vertical : Option (Pass α)
  horizontal : Option (Pass α)

namespace PassPlan

variable {α : Type}

/-- The passes in the order in which they are rendered. -/
def passes (plan : PassPlan α) : List (Pass α) :=
  plan.copy.toList ++ plan.vertical.toList ++ plan.horizontal.toList

/-- The plan with the axes exchanged: what was the horizontal pass is the vertical one, and the
    other way round. -/
def swap (plan : PassPlan α) : PassPlan α where
  copy := plan.copy.map .swap
  vertical := plan.horizontal.map fun p => { p.swap with label := "Gaussian Blur Vertical" }
  horizontal := plan.vertical.map fun p => { p.swap with label := "Gaussian Blur Horizontal" }

/-- Nothing to render. -/
def nothing : PassPlan α := ⟨none, none, none⟩

end PassPlan

/-- The pass of a stage, if it is rendered. -/
def Stage.pass? {α : Type} : Stage α → Option (Pass α)
  | .draw pass => some pass
  | .skip _ => none

theorem Stage.passes_cons {α : Type} (stage : Stage α) (stages : List (Stage α)) :
    Stage.passes (stage :: stages) = stage.pass?.toList ++ Stage.passes stages := by
  cases stage <;> rfl

namespace Blur

/-- The passes of a blur that has something to do. -/
def passPlan {α : Type} [Scalar α] (b : Blur α) (capabilities : Capabilities) (source : Source α) :
    PassPlan α where
  copy := some (b.downsample capabilities source)
  vertical := (b.axisStage capabilities source "Gaussian Blur Vertical"
    (b.verticalKernel source.size)).pass?
  horizontal := (b.axisStage capabilities source "Gaussian Blur Horizontal"
    (b.horizontalKernel source.size)).pass?

theorem passPlan_passes {α : Type} [Scalar α] (b : Blur α) (capabilities : Capabilities)
    (source : Source α) :
    (b.passPlan capabilities source).passes = Stage.passes (b.stages capabilities source) := by
  simp [PassPlan.passes, passPlan, stages, Stage.passes_cons, Stage.passes, Stage.pass?]

variable (b : Blur Binary32) (capabilities : Capabilities)

theorem target_swap (source : Size) :
    b.swap.target source.swap =
      ⟨(b.target source).size.swap, (b.target source).achieved.swap⟩ := by
  have h : b.swap.extent.resolution = b.extent.resolution := Extent.resolution_swap b.sigma
  simp only [target, h]
  rfl

theorem verticalKernel_swap (source : Size) :
    b.swap.verticalKernel source.swap = (b.horizontalKernel source).swap := by
  simp only [verticalKernel, target_swap]
  rfl

theorem horizontalKernel_swap (source : Size) :
    b.swap.horizontalKernel source.swap = (b.verticalKernel source).swap := by
  simp only [horizontalKernel, target_swap]
  rfl

theorem downsample_swap (source : Source Binary32) :
    b.swap.downsample capabilities source.swap = (b.downsample capabilities source).swap := by
  let uvs := (source.size.textureCoords source.placement).withGutter source.size b.extent.padding
  have huvs : (source.swap.size.textureCoords source.swap.placement).withGutter source.swap.size
      b.swap.extent.padding = uvs.flip Vec2.swap := by
    rw [Quad.withGutter_flip, Size.textureCoords_flip]
    rfl
  have htarget : (b.swap.target source.swap.size).size = (b.target source.size).size.swap :=
    congrArg TargetPlan.size (b.target_swap source.size)
  simp only [downsample, huvs, htarget]
  rfl

theorem axisStage_swap (source : Source Binary32) (label swapped : String)
    (kernel : AxisKernel Binary32) :
    (b.swap.axisStage capabilities source.swap swapped kernel.swap).pass? =
      (b.axisStage capabilities source label kernel).pass?.map fun p =>
        { p.swap with label := swapped } := by
  have htarget : (b.swap.target source.swap.size).size = (b.target source.size).size.swap :=
    congrArg TargetPlan.size (b.target_swap source.size)
  have hsigma : kernel.swap.sigma = kernel.sigma := rfl
  simp only [axisStage, htarget, hsigma]
  split <;> rfl

/-- The plan of the swapped blur for the swapped source is the swapped plan. -/
theorem passPlan_swap (source : Source Binary32) :
    b.swap.passPlan capabilities source.swap = (b.passPlan capabilities source).swap := by
  have hvertical : b.swap.verticalKernel source.swap.size = _ := b.verticalKernel_swap source.size
  have hhorizontal : b.swap.horizontalKernel source.swap.size = _ :=
    b.horizontalKernel_swap source.size
  simp only [passPlan, PassPlan.swap, downsample_swap, hvertical, hhorizontal, Option.map_some]
  rw [b.axisStage_swap capabilities source "Gaussian Blur Horizontal",
    b.axisStage_swap capabilities source "Gaussian Blur Vertical"]

theorem placement_swap (source : Size) (transform : Matrix4 Binary32) :
    b.swap.placement source.swap transform.swap = (b.placement source transform).swap := by
  simp only [placement, target_swap, Matrix4.mul_swap]
  rfl

end Blur

/-! ## Runs -/

namespace Blur

section

variable {α σ τ : Type} [Scalar α] (b : Blur α)

/-- The passes of a blur, which are none for a source without pixels or a blur that is too weak to
    be visible. -/
def plan (capabilities : Capabilities) (source : Source α) : PassPlan α :=
  if source.size.isEmpty ∨ b.extent.isNoop then .nothing else b.passPlan capabilities source

/-- Where the result goes, for a source of this size placed by `transform`. -/
def resultTransform (source : Size) (transform : Matrix4 α) : Matrix4 α :=
  if b.extent.isNoop then transform else b.placement source transform

/-- The blur of a texture comes to its plan in a chain of calls, and what is rendered goes where
    the plan says. -/
theorem render_plan (r : SubpassRenderer α σ τ) (entity : Entity α) (t : τ)
    (placement : Matrix4 α) (rest : List (FilterInput α σ τ)) (effect : Matrix4 α)
    (hint : Option (Rect α)) (s : Logged α σ) :
    let source : Source α := ⟨r.size t, placement, .linearClamp⟩
    let inputs := .ofTexture t (r.size t) placement :: rest
    (∃ outcome final, Chained r s.state t (b.plan (r.capabilities s.state) source).passes
      (b.calls r inputs entity effect hint s) outcome final) ∧
    ∀ output, ((b.render r inputs entity effect hint).runFrom s).1 = .ok (some output) →
      output.transform = b.resultTransform source.size (entity.transform * placement) := by
  intro source inputs
  by_cases hidle : (r.size t).isEmpty = true ∨ b.extent.isNoop = true
  · obtain ⟨hcalls, hresult⟩ := b.render_ofTexture_idle r entity placement rest effect hint hidle s
    rw [hcalls, hresult, plan, if_pos hidle]
    refine ⟨⟨_, _, .done⟩, ?_⟩
    intro output houtput
    cases hsize : (r.size t).isEmpty with
    | true => simp [hsize] at houtput
    | false =>
      have hnoop : b.extent.isNoop = true := hidle.resolve_left (by simp [hsize])
      simp only [hsize, Bool.false_eq_true, if_false, Except.ok.injEq, Option.some.injEq] at houtput
      rw [← houtput, resultTransform, if_pos hnoop]
      rfl
  · rw [plan, if_neg hidle, passPlan_passes]
    simp only [not_or, Bool.not_eq_true] at hidle
    obtain ⟨outcome, final, hresult, hchain⟩ :=
      b.render_ofTexture r entity placement rest effect hint hidle.1 hidle.2 s
    refine ⟨⟨outcome, final, hchain⟩, ?_⟩
    intro output houtput
    rw [hresult] at houtput
    cases outcome with
    | error e => cases houtput
    | ok texture =>
      cases houtput
      rw [resultTransform, if_neg (by simp [hidle.2])]
      rfl

end

/-! ### Swapped runs -/

section

variable (b : Blur Binary32)

theorem plan_swap (capabilities : Capabilities) (source : Source Binary32) :
    b.swap.plan capabilities source.swap = (b.plan capabilities source).swap := by
  have hsize : source.swap.size.isEmpty = source.size.isEmpty := Bool.or_comm _ _
  have hnoop : b.swap.extent.isNoop = b.extent.isNoop := Extent.isNoop_swap b.sigma
  simp only [plan, hsize, hnoop]
  split
  · rfl
  · exact b.passPlan_swap capabilities source

theorem resultTransform_swap (source : Size) (transform : Matrix4 Binary32) :
    b.swap.resultTransform source.swap transform.swap =
      (b.resultTransform source transform).swap := by
  have hnoop : b.swap.extent.isNoop = b.extent.isNoop := Extent.isNoop_swap b.sigma
  simp only [resultTransform, hnoop]
  split
  · rfl
  · exact b.placement_swap source transform

variable {σ τ σ' τ' : Type}

/-- Exchange the sides of a texture and the sigmas of its blur, and the passes that are asked for
    are those with the axes exchanged, on any two renderers with the same capabilities. What comes
    of them goes to exchanged points. -/
theorem render_swap (r : SubpassRenderer Binary32 σ τ) (r' : SubpassRenderer Binary32 σ' τ')
    (t : τ) (t' : τ') (entity entity' : Entity Binary32)
    (rest : List (FilterInput Binary32 σ τ)) (rest' : List (FilterInput Binary32 σ' τ'))
    (effect effect' : Matrix4 Binary32) (hint hint' : Option (Rect Binary32))
    (s : Logged Binary32 σ) (s' : Logged Binary32 σ') (hsize : r'.size t' = (r.size t).swap)
    (hcapabilities : r'.capabilities s'.state = r.capabilities s.state)
    (hentity : entity.transform = .identity) (hentity' : entity'.transform = .identity) :
    let inputs := .ofTexture t (r.size t) .identity :: rest
    let inputs' := .ofTexture t' (r'.size t') .identity :: rest'
    let plan := b.plan (r.capabilities s.state) ⟨r.size t, .identity, .linearClamp⟩
    (∃ outcome final,
      Chained r s.state t plan.passes (b.calls r inputs entity effect hint s) outcome final) ∧
    (∃ outcome final,
      Chained r' s'.state t' plan.swap.passes (b.swap.calls r' inputs' entity' effect' hint' s')
        outcome final) ∧
    ∀ output output',
      ((b.render r inputs entity effect hint).runFrom s).1 = .ok (some output) →
      ((b.swap.render r' inputs' entity' effect' hint').runFrom s').1 = .ok (some output') →
      ∀ p, output'.transform.transformPoint p.swap = (output.transform.transformPoint p).swap := by
  intro inputs inputs' plan
  obtain ⟨hchain, hplace⟩ := b.render_plan r entity t .identity rest effect hint s
  obtain ⟨hchain', hplace'⟩ := b.swap.render_plan r' entity' t' .identity rest' effect' hint' s'
  have hplan : b.swap.plan (r'.capabilities s'.state) ⟨r'.size t', .identity, .linearClamp⟩ =
      plan.swap := by
    rw [hcapabilities, hsize]
    exact b.plan_swap (r.capabilities s.state) ⟨r.size t, .identity, .linearClamp⟩
  rw [hplan] at hchain'
  refine ⟨hchain, hchain', ?_⟩
  intro output output' houtput houtput' p
  have hunmoved : Matrix4.swap (.identity * .identity : Matrix4 Binary32) = .identity * .identity :=
    Matrix4.mul_swap .identity .identity
  rw [hplace output houtput, hplace' output' houtput', hentity, hentity', hsize, ← hunmoved,
    resultTransform_swap, hunmoved, Matrix4.transformPoint_swap]

/-- A horizontal blur of 100 by 80 pixels against a vertical one of 80 by 100. -/
theorem render_swap_of_one_axis :
    let b : Blur Binary32 := ⟨⟨Scalar.ofRat 10, 0⟩, .decal⟩
    let plan := b.plan {} ⟨⟨100, 80⟩, .identity, .linearClamp⟩
    plan.vertical = none ∧ plan.horizontal.isSome ∧
      ∃ outcome final, Chained sizesOnly () ⟨80, 100⟩ plan.swap.passes
        (b.swap.calls sizesOnly [.ofTexture ⟨80, 100⟩ ⟨80, 100⟩ .identity] default .identity none
          ⟨(), []⟩) outcome final := by
  intro b plan
  have h := b.render_swap sizesOnly sizesOnly ⟨100, 80⟩ ⟨80, 100⟩ default default [] [] .identity
    .identity none none ⟨(), []⟩ ⟨(), []⟩ rfl rfl rfl rfl
  exact ⟨by decide +kernel, by decide +kernel, h.2.1⟩

end

end Blur

end SeparableBlur
