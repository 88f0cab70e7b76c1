-- SUMMARY: Positions of the target of a blur: where they are placed, and that they take in all that the coverage announces.
import SeparableBlur.Proofs.Coverage
import SeparableBlur.Proofs.Placement

/-!
# The gutter

The target of a blur shows its source with a gutter around it, shrunk and rounded to
whole pixels. Without rounding of the numbers, the transform of the output takes each
position of the target back to the position of the padded source that it stands for,
whatever scale the target has achieved, and from there to where the snapshot has it.

So the output fills the image of the padded source. The gutter is at least as wide as
the kernel reaches, and the region that a blur announces as its coverage grows by no
more than that reach, in whatever direction the transform turns it.
-/

namespace SeparableBlur

/-! ## Outcomes -/

/-- A chain of calls comes to an error only if one of the calls was answered with it. -/
theorem Chained.exists_error {α σ τ : Type} {r : SubpassRenderer α σ τ} {s final : σ} {t : τ}
    {passes : List (Pass α)} {calls : List (Call α τ)} {e : RenderError}
    (h : Chained r s t passes calls (.error e) final) :
    ∃ call ∈ calls, call.answer = .error e := by
  generalize houtcome : (Except.error e : Except RenderError τ) = outcome at h
  induction h with
  | done => cases houtcome
  | failed =>
    cases houtcome
    exact ⟨_, List.mem_cons_self, rfl⟩
  | rendered _ _ ih =>
    obtain ⟨call, hcall, hanswer⟩ := ih houtcome
    exact ⟨call, List.mem_cons_of_mem _ hcall, hanswer⟩

/-- The renderer renders into targets of the size it is asked for. -/
def SubpassRenderer.Sized {α σ τ : Type} (r : SubpassRenderer α σ τ) : Prop :=
  ∀ subpass s target after,
    (r.run subpass).runFrom s = (.ok target, after) → r.size target = subpass.size

/-- A chain of passes into targets of one size ends with a texture of that size. -/
theorem Chained.size_eq {α σ τ : Type} {r : SubpassRenderer α σ τ} (hr : r.Sized) {size : Size}
    {s final : σ} {t texture : τ} {passes : List (Pass α)} {calls : List (Call α τ)}
    (hsize : ∀ pass ∈ passes, pass.size = size)
    (h : Chained r s t passes calls (.ok texture) final) :
    passes = [] ∧ texture = t ∨ r.size texture = size := by
  generalize houtcome : (Except.ok texture : Except RenderError τ) = outcome at h
  induction h with
  | done =>
    cases houtcome
    exact .inl ⟨rfl, rfl⟩
  | failed => cases houtcome
  | rendered hrun _ ih =>
    rw [List.forall_mem_cons] at hsize
    right
    rcases ih hsize.2 houtcome with ⟨-, rfl⟩ | htexture
    · exact (hr _ _ _ _ hrun).trans hsize.1
    · exact htexture

/-- A texture is handed out as it is. -/
theorem FilterInput.snapshot_ofTexture {α σ τ : Type} [Scalar α] (t : τ) (size : Size)
    (placement : Matrix4 α) (label : String) (entity : Entity α) (limit : Option (Rect α))
    (s : Logged α σ) :
    ((ofTexture t size placement : FilterInput α σ τ).snapshot label entity limit).runFrom s =
      (.ok (some ⟨t, entity.transform * placement, .linearClamp, 1⟩), s) := rfl

namespace Blur

variable {α σ τ : Type} [Scalar α]

/-- The blur comes to an output with the property, unless one of its calls fails. -/
def Yields (b : Blur α) (r : SubpassRenderer α σ τ) (inputs : List (FilterInput α σ τ))
    (entity : Entity α) (effect : Matrix4 α) (hint : Option (Rect α)) (s : Logged α σ)
    (property : Output α τ → Prop) : Prop :=
  let result := ((b.render r inputs entity effect hint).runFrom s).1
  (∃ output, result = .ok (some output) ∧ property output) ∨
    ∃ e, result = .error e ∧
      ∃ call ∈ b.calls r inputs entity effect hint s, call.answer = .error e

section

variable {b : Blur α} {r : SubpassRenderer α σ τ} {entity : Entity α} {input : FilterInput α σ τ}
  {rest : List (FilterInput α σ τ)} {effect : Matrix4 α} {hint : Option (Rect α)}
  {s after : Logged α σ} {snapshot : Snapshot α τ}

/-- A blur of a snapshot with pixels hands it on, if it is too weak, or issues its calls. -/
theorem Renders.of_snapshot {calls : List (Call α τ)}
    {result : Except RenderError (Option (Output α τ))} {final : σ}
    (h : Renders b r entity effect hint s (input :: rest) calls result final)
    (hsnapshot : (input.snapshot "Gaussian Blur Snapshot" entity
      (b.inputLimit entity effect hint)).runFrom s = (.ok (some snapshot), after))
    (hsize : (r.size snapshot.texture).isEmpty = false) :
    b.extent.isNoop = true ∧ result = .ok (some (.ofSnapshot snapshot entity)) ∨
      b.extent.isNoop = false ∧ b.Issues r entity snapshot after.state calls result final := by
  cases h with
  | failed hs => cases hs.symm.trans hsnapshot
  | nothing hs => cases hs.symm.trans hsnapshot
  | empty hs hempty =>
    cases hs.symm.trans hsnapshot
    cases hempty.symm.trans hsize
  | weak hs _ hweak =>
    cases hs.symm.trans hsnapshot
    exact .inl ⟨hweak, rfl⟩
  | blurred hs _ hvisible hissues =>
    cases hs.symm.trans hsnapshot
    exact .inr ⟨hvisible, hissues⟩

/-- A visible blur of a snapshot with pixels comes to the output of its last call. -/
theorem yields_of_visible
    (hsnapshot : (input.snapshot "Gaussian Blur Snapshot" entity
      (b.inputLimit entity effect hint)).runFrom s = (.ok (some snapshot), after))
    (hsize : (r.size snapshot.texture).isEmpty = false) (hnoop : b.extent.isNoop = false)
    {property : Output α τ → Prop}
    (h : ∀ texture, (r.Sized → r.size texture = (b.target (r.size snapshot.texture)).size) →
      property (.ofSnapshot (b.blurredSnapshot (r.size snapshot.texture) snapshot texture)
        entity)) :
    b.Yields r (input :: rest) entity effect hint s property := by
  obtain ⟨calls, result, final, log, hcalls, hrun, hrenders⟩ :=
    b.renders r entity (input :: rest) effect hint s
  simp only [Yields, hcalls, hrun]
  rcases hrenders.of_snapshot hsnapshot hsize with ⟨hweak, -⟩ | ⟨-, hissues⟩
  · cases hweak.symm.trans hnoop
  · obtain ⟨down, passes, outcome, hdown, hpasses, hchain, rfl⟩ := hissues.chain
    have hsizes : ∀ pass ∈ down :: passes,
        pass.size = (b.target (r.size snapshot.texture)).size := by
      rw [List.forall_mem_cons]
      refine ⟨hdown.size, fun pass hpass => ?_⟩
      obtain ⟨_, _, -, -, hblur⟩ := hpasses pass hpass
      exact hblur.size
    cases outcome with
    | error e => exact .inr ⟨e, rfl, hchain.exists_error⟩
    | ok texture =>
      refine .inl ⟨_, rfl, h texture fun hr => ?_⟩
      exact (hchain.size_eq hr hsizes).resolve_left nofun

/-- A blur that is too weak to be visible comes to the snapshot itself. -/
theorem yields_of_weak
    (hsnapshot : (input.snapshot "Gaussian Blur Snapshot" entity
      (b.inputLimit entity effect hint)).runFrom s = (.ok (some snapshot), after))
    (hsize : (r.size snapshot.texture).isEmpty = false) (hnoop : b.extent.isNoop = true)
    {property : Output α τ → Prop} (h : property (.ofSnapshot snapshot entity)) :
    b.Yields r (input :: rest) entity effect hint s property := by
  obtain ⟨calls, result, final, log, hcalls, hrun, hrenders⟩ :=
    b.renders r entity (input :: rest) effect hint s
  simp only [Yields, hcalls, hrun]
  rcases hrenders.of_snapshot hsnapshot hsize with ⟨-, rfl⟩ | ⟨hvisible, -⟩
  · exact .inl ⟨_, rfl, h⟩
  · cases hvisible.symm.trans hnoop

end

end Blur

/-! ## Positions -/

namespace Blur

variable (b : Blur Rat) {m : Matrix4 Rat}

/-- The transform `result` places the target for a source of the size `s` where `m` places the
    source with its gutter: each position, and the two opposite corners in particular. -/
structure PlacesTarget (s : Size) (m result : Matrix4 Rat) : Prop where
  position : ∀ p, result.transformPoint ((p + b.extent.padding) * (b.target s).achieved) =
    m.transformPoint p
  topLeft : result.transformPoint ⟨0, 0⟩ = m.transformPoint (-b.extent.padding)
  bottomRight : result.transformPoint (b.target s).size.toVec2 =
    m.transformPoint (s.toVec2 + b.extent.padding)

/-- A padded source has two lengths that are not zero. -/
theorem padded_ne_zero {s : Size} (hsize : s.isEmpty = false) :
    (s.width.toNat : Rat) + b.extent.padding.x * 2 ≠ 0 ∧
      (s.height.toNat : Rat) + b.extent.padding.y * 2 ≠ 0 := by
  obtain ⟨hw, hl⟩ := Size.lengths_ne_zero hsize
  obtain ⟨hpadX, hpadY⟩ := b.extent.padding_nonneg
  constructor <;> positivity

/-- A position of the padded source, taken to the target and back. -/
theorem placement_achieved (h : m.IsAffine) {s : Size} (hsize : s.isEmpty = false)
    (p : Vec2 Rat) :
    (b.placement s m).transformPoint ((p + b.extent.padding) * (b.target s).achieved) =
      m.transformPoint p := by
  obtain ⟨hpadX, hpadY⟩ := b.padded_ne_zero hsize
  -- The position is the fraction `u` of the padded source, and of the target.
  let u : Vec2 Rat := ⟨(p.x + b.extent.padding.x) / (s.width.toNat + b.extent.padding.x * 2),
    (p.y + b.extent.padding.y) / (s.height.toNat + b.extent.padding.y * 2)⟩
  have hscale (x length padded : Rat) : x * (length / padded) = x / padded * length := by ring
  have hu : (p + b.extent.padding) * (b.target s).achieved = u * (b.target s).size.toVec2 :=
    congrArg₂ Vec2.mk (hscale _ _ _) (hscale _ _ _)
  have hback {padded : Rat} (hpadded : padded ≠ 0) (x pad : Rat) :
      padded * ((x + pad) / padded) - pad = x := by
    rw [mul_div_cancel₀ _ hpadded, add_sub_cancel_right]
  rw [hu, b.placement_transformPoint h]
  exact congrArg m.transformPoint (congrArg₂ Vec2.mk (hback hpadX p.x _) (hback hpadY p.y _))

theorem placement_places (h : m.IsAffine) {s : Size} (hsize : s.isEmpty = false) :
    b.PlacesTarget s m (b.placement s m) := by
  have hposition := b.placement_achieved h hsize
  obtain ⟨hpadX, hpadY⟩ := b.padded_ne_zero hsize
  refine ⟨hposition, ?_, ?_⟩
  · have hzero (pad k : Rat) : (-pad + pad) * k = 0 := by ring
    have hcorner : (-b.extent.padding + b.extent.padding) * (b.target s).achieved = ⟨0, 0⟩ :=
      congrArg₂ Vec2.mk (hzero _ _) (hzero _ _)
    rw [← hposition, hcorner]
  · have hwhole {padded : Rat} (hpadded : padded ≠ 0) {w pad : Rat} (hw : padded = w + pad * 2)
        (length : Rat) : (w + pad + pad) * (length / padded) = length := by
      rw [show w + pad + pad = padded by rw [hw]; ring, mul_div_cancel₀ _ hpadded]
    have hcorner : (s.toVec2 + b.extent.padding + b.extent.padding) * (b.target s).achieved =
        (b.target s).size.toVec2 :=
      congrArg₂ Vec2.mk (hwhole hpadX rfl _) (hwhole hpadY rfl _)
    rw [← hposition, hcorner]

/-- A visible blur places its target where the snapshot has the source with its gutter, whatever
    the input is and whatever the target was rounded to. -/
theorem render_places {σ τ : Type} (r : SubpassRenderer Rat σ τ) (entity : Entity Rat)
    (input : FilterInput Rat σ τ) (rest : List (FilterInput Rat σ τ)) (effect : Matrix4 Rat)
    (hint : Option (Rect Rat)) (s after : Logged Rat σ) (snapshot : Snapshot Rat τ)
    (hsnapshot : (input.snapshot "Gaussian Blur Snapshot" entity
      (b.inputLimit entity effect hint)).runFrom s = (.ok (some snapshot), after))
    (hsize : (r.size snapshot.texture).isEmpty = false) (hnoop : b.extent.isNoop = false)
    (haffine : snapshot.transform.IsAffine) :
    b.Yields r (input :: rest) entity effect hint s fun output =>
      b.PlacesTarget (r.size snapshot.texture) snapshot.transform output.transform := by
  apply yields_of_visible hsnapshot hsize hnoop
  intro texture _
  exact b.placement_places haffine hsize

/-- A hundred by eighty-one pixels, sheared and moved. The target is rounded on both axes. -/
theorem render_places_of_shear :
    let b : Blur Rat := ⟨⟨10, 7⟩, .clamp⟩
    let shear : Matrix4 Rat := ⟨⟨2, 1, 0, 0⟩, ⟨-3, 1, 0, 0⟩, ⟨0, 0, 1, 0⟩, ⟨5, -7, 0, 1⟩⟩
    let input : FilterInput Rat Unit Size := .ofTexture ⟨100, 81⟩ ⟨100, 81⟩ shear
    (b.target ⟨100, 81⟩).size = ⟨55, 43⟩ ∧
      b.Yields exactSizes [input] default .identity none ⟨(), []⟩ fun output =>
        b.PlacesTarget ⟨100, 81⟩ (.identity * shear) output.transform := by
  intro b shear input
  let snapshot : Snapshot Rat Size := ⟨⟨100, 81⟩, .identity * shear, .linearClamp, 1⟩
  have haffine : snapshot.transform.IsAffine := Matrix4.isAffine_identity.mul ⟨rfl, rfl, rfl, rfl⟩
  exact ⟨by decide +kernel, b.render_places exactSizes default input [] .identity none ⟨(), []⟩
    ⟨(), []⟩ snapshot rfl (by decide) (by decide +kernel) haffine⟩

end Blur

/-! ## Bounds -/

/-- Within one reach of the moved points, bounds that are grown by a shorter reach. -/
theorem Rect.contains_grow {region r : Rect Rat} {m : Matrix4 Rat} (hm : m.IsAffine)
    (hwidth : r.left ≤ r.right) (hheight : r.top ≤ r.bottom) {reach far : Vec2 Rat}
    (hx : 0 ≤ reach.x) (hy : 0 ≤ reach.y) (hfarX : reach.x ≤ far.x) (hfarY : reach.y ≤ far.y)
    (h : ∀ p d, r.Covers p → |d.x| ≤ far.x → |d.y| ≤ far.y →
      region.Covers (m.transformPoint (p + d))) :
    region.Contains ((r.transformBounds m).grow m reach) := by
  have hbounds := r.transformBounds_bounds m
  have hcorners := r.corners_covered hwidth hheight
  simp only [hm.transformPoint_add] at h
  -- What one corner of the box of displacements reaches, another one reaches for both columns.
  have hreach (a c : Rat) : ∃ d : Vec2 Rat, |d.x| ≤ far.x ∧ |d.y| ≤ far.y ∧
      |a * reach.x + c * reach.y| ≤ a * d.x + c * d.y := by
    obtain ⟨d, hdx, hdy, hd⟩ := exists_linear_eq a c hx hy
    exact ⟨d, hdx.trans hfarX, hdy.trans hfarY, (abs_add_le _ _).trans hd.ge⟩
  have hopposite (a c : Rat) (d : Vec2 Rat) : a * (-d).x + c * (-d).y = -(a * d.x + c * d.y) := by
    change a * -d.x + c * -d.y = _
    ring
  have hneg {x bound : Rat} (hx : |x| ≤ bound) : |-x| ≤ bound := (abs_neg x).trans_le hx
  obtain ⟨d, hdx, hdy, hd⟩ := hreach m.xAxis.x m.yAxis.x
  obtain ⟨e, hex, hey, he⟩ := hreach m.xAxis.y m.yAxis.y
  rw [Rect.grow, expand, Matrix4.transformExtent_eq]
  -- Each edge is attained at a corner, and what the region covers is further out from there.
  refine ⟨?_, ?_, ?_, ?_⟩
  · obtain ⟨_, hmem, hleft⟩ := hbounds.left
    obtain ⟨q, hq, rfl⟩ := List.mem_map.1 hmem
    have hfar := (h q (-d) (hcorners q hq) (hneg hdx) (hneg hdy)).left
    dsimp only at hfar ⊢
    rw [hopposite] at hfar
    linarith
  · obtain ⟨_, hmem, htop⟩ := hbounds.top
    obtain ⟨q, hq, rfl⟩ := List.mem_map.1 hmem
    have hfar := (h q (-e) (hcorners q hq) (hneg hex) (hneg hey)).top
    dsimp only at hfar ⊢
    rw [hopposite] at hfar
    linarith
  · obtain ⟨_, hmem, hright⟩ := hbounds.right
    obtain ⟨q, hq, rfl⟩ := List.mem_map.1 hmem
    have hfar := (h q d (hcorners q hq) hdx hdy).right
    dsimp only at hfar ⊢
    linarith
  · obtain ⟨_, hmem, hbottom⟩ := hbounds.bottom
    obtain ⟨q, hq, rfl⟩ := List.mem_map.1 hmem
    have hfar := (h q e (hcorners q hq) hex hey).bottom
    dsimp only at hfar ⊢
    linarith

namespace Blur

variable (b : Blur Rat)

/-- The gutter is as wide as the kernel reaches. -/
theorem radius_le_padding : b.extent.radius.x ≤ b.extent.padding.x ∧
    b.extent.radius.y ≤ b.extent.padding.y :=
  ⟨Rat.le_ceil, Rat.le_ceil⟩

/-- A blur that is too weak to be visible reaches nowhere. -/
theorem radius_eq_zero (hnoop : b.extent.isNoop = true) :
    b.extent.radius.x = 0 ∧ b.extent.radius.y = 0 := by
  simp only [Extent.isNoop, Bool.and_eq_true, decide_eq_true_eq] at hnoop
  have hradius {sigma : Rat} (h : sigma < Kernel.epsilon) : Kernel.radius sigma = 0 := by
    have hepsilon : (Kernel.epsilon : Rat) < Kernel.pixelSigma := by decide +kernel
    rw [Kernel.radius, if_neg (h.trans hepsilon).not_gt]
  exact ⟨hradius hnoop.1, hradius hnoop.2⟩

/-- Only the linear part of the effect has to do with the coverage. -/
theorem coverage_congr {σ τ : Type} (inputs : List (FilterInput Rat σ τ)) (entity : Entity Rat)
    {effect effect' : Matrix4 Rat} (h : effect.basis = effect'.basis) :
    b.coverage inputs entity effect = b.coverage inputs entity effect' := by
  simp only [coverage, h]

/-- The bounds of the placed target cover everything within the gutter of the source. -/
theorem covers_target {m : Matrix4 Rat} (hm : m.IsAffine) {s : Size} (hsize : s.isEmpty = false)
    {p d : Vec2 Rat} (hp : (Rect.ofSize s : Rect Rat).Covers p) (hdx : |d.x| ≤ b.extent.padding.x)
    (hdy : |d.y| ≤ b.extent.padding.y) :
    ((Rect.ofSize (b.target s).size).transformBounds (b.placement s m)).Covers
      (m.transformPoint (p + d)) := by
  have hresult : (b.placement s m).IsAffine :=
    (hm.mul (Matrix4.isAffine_translation _ _ _)).mul (Matrix4.isAffine_scaling _ _ _)
  rw [← b.placement_achieved hm hsize]
  apply Rect.Covers.transform hresult
  -- A position of the padded source is no further along the target than the target is long.
  have hscale (padded length x : Rat) (h0 : 0 ≤ x) (hx : x ≤ padded) (hlength : 0 ≤ length) :
      0 ≤ x * (length / padded) ∧ x * (length / padded) ≤ 0 + length := by
    have hpadded : 0 ≤ padded := h0.trans hx
    refine ⟨by positivity, ?_⟩
    rw [zero_add, mul_div_left_comm]
    exact mul_le_of_le_one_right hlength (div_le_one_of_le₀ hx hpadded)
  have hleft : (0 : Rat) ≤ p.x := hp.left
  have htop : (0 : Rat) ≤ p.y := hp.top
  have hright : p.x ≤ 0 + (s.width.toNat : Rat) := hp.right
  have hbottom : p.y ≤ 0 + (s.height.toNat : Rat) := hp.bottom
  obtain ⟨hlowX, hhighX⟩ := abs_le.1 hdx
  obtain ⟨hlowY, hhighY⟩ := abs_le.1 hdy
  have hx := hscale (s.width.toNat + b.extent.padding.x * 2) (b.target s).size.width.toNat
    (p.x + d.x + b.extent.padding.x) (by linarith) (by linarith) (by positivity)
  have hy := hscale (s.height.toNat + b.extent.padding.y * 2) (b.target s).size.height.toNat
    (p.y + d.y + b.extent.padding.y) (by linarith) (by linarith) (by positivity)
  exact ⟨hx.1, hy.1, hx.2, hy.2⟩

/-- What a blur of a texture announces as its coverage lies within the bounds of its output, under
    an effect that moves everything alike. -/
theorem coverage_rendered {σ τ : Type} (r : SubpassRenderer Rat σ τ) (hr : r.Sized)
    (entity : Entity Rat) (t : τ) (placement : Matrix4 Rat) (rest : List (FilterInput Rat σ τ))
    (effect : Matrix4 Rat) (hint : Option (Rect Rat)) (s : Logged Rat σ)
    (hsize : (r.size t).isEmpty = false) (hplacement : placement.IsAffine)
    (hentity : entity.transform.IsAffine) (heffect : effect.basis = .identity) :
    let inputs := .ofTexture t (r.size t) placement :: rest
    ∃ region, b.coverage inputs entity effect = some region ∧
      b.Yields r inputs entity effect hint s fun output =>
        ((Rect.ofSize (r.size output.texture)).transformBounds output.transform).Contains
          region := by
  intro inputs
  have hm : (entity.transform * placement).IsAffine := hentity.mul hplacement
  have hcoverage := (b.coverage_congr inputs entity heffect).trans
    (b.coverage_ofTexture t (r.size t) placement rest entity)
  have hwidth := Rect.ofSize_left_le_right (r.size t)
  have hheight := Rect.ofSize_top_le_bottom (r.size t)
  have hx : 0 ≤ b.extent.radius.x := Kernel.radius_nonneg _
  have hy : 0 ≤ b.extent.radius.y := Kernel.radius_nonneg _
  have hsnapshot := FilterInput.snapshot_ofTexture t (r.size t) placement "Gaussian Blur Snapshot"
    entity (b.inputLimit entity effect hint) s
  refine ⟨_, hcoverage, ?_⟩
  cases hnoop : b.extent.isNoop with
  | false =>
    apply yields_of_visible hsnapshot hsize hnoop
    intro texture htexture
    obtain ⟨hpadX, hpadY⟩ := b.radius_le_padding
    refine Rect.contains_grow hm hwidth hheight hx hy hpadX hpadY fun p d hp hdx hdy => ?_
    change (Rect.transformBounds (Rect.ofSize (r.size texture)) _).Covers _
    rw [htexture hr]
    exact b.covers_target hm hsize hp hdx hdy
  | true =>
    -- The texture is handed on, and nothing is reached outside of it.
    apply yields_of_weak hsnapshot hsize hnoop
    obtain ⟨hradX, hradY⟩ := b.radius_eq_zero hnoop
    have hnowhere : b.extent.radius = ⟨0, 0⟩ := congrArg₂ Vec2.mk hradX hradY
    refine Rect.contains_grow hm hwidth hheight hx hy le_rfl le_rfl fun p d hp hdx hdy => ?_
    rw [hnowhere] at hdx hdy
    have hd : p + d = p := by
      change Vec2.mk (p.x + d.x) (p.y + d.y) = p
      rw [abs_nonpos_iff.1 hdx, abs_nonpos_iff.1 hdy, add_zero, add_zero]
    rw [hd]
    exact hp.transform hm

/-- An eighth of a turn, where the coverage is too small for the kernel. -/
theorem coverage_rendered_of_eighth_turn :
    let b : Blur Rat := ⟨⟨10, 7⟩, .decal⟩
    let turn : Matrix4 Rat := ⟨⟨1, 1, 0, 0⟩, ⟨-1, 1, 0, 0⟩, ⟨0, 0, 1, 0⟩, ⟨0, 0, 0, 1⟩⟩
    let shift : Matrix4 Rat := .translation 3 5 0
    let inputs : List (FilterInput Rat Unit Size) := [.ofTexture ⟨100, 81⟩ ⟨100, 81⟩ shift]
    let entity : Entity Rat := ⟨turn, .sourceOver, 0⟩
    exactSizes.Sized ∧
      ∃ region, b.coverage inputs entity shift = some region ∧
        b.Yields exactSizes inputs entity shift none ⟨(), []⟩ fun output =>
          ((Rect.ofSize output.texture).transformBounds output.transform).Contains region := by
  intro b turn shift inputs entity
  have hsized : exactSizes.Sized := by
    intro subpass s target after h
    cases h
    rfl
  exact ⟨hsized, b.coverage_rendered exactSizes hsized entity ⟨100, 81⟩ shift [] shift none
    ⟨(), []⟩ (by decide) (Matrix4.isAffine_translation 3 5 0) ⟨rfl, rfl, rfl, rfl⟩ rfl⟩

end Blur

end SeparableBlur
