-- SUMMARY: What a decal blur reads in the gutter of its source: transparent black, or the edge on a device that cannot address it.
import SeparableBlur.Proofs.Gutter

/-!
# The halo

The copy of a source shows a gutter around it, which is read outside the texture. What a
pass reads there is transparent black if its sampler addresses it, or if its program is
the one that reads transparent black by itself.

The program of the copy takes what the sampler reads. So the gutter of a decal blur is
transparent on a device with decal addressing, and its result fades out into a halo. A
device without it falls back to samplers that clamp, and the gutter shows the edge of the
source. The blurring passes have the other program there, and what they read outside the
copy is transparent on that device.
-/

namespace SeparableBlur

/-! ## Reading outside a texture -/

/-- A texture coordinate beyond one of the edges. -/
def OutsideUnit (x : Rat) : Prop := x < 0 ∨ 1 < x

/-- What the pass reads at `p` is transparent black, for a position outside the texture: the
    program sees to that, or the sampler does along an axis on which `p` is outside. -/
def Pass.ReadsTransparent (pass : Pass Rat) (capabilities : Capabilities) (p : Vec2 Rat) : Prop :=
  pass.pipeline = .decalBlur ∨
    capabilities.decalAddressing = true ∧
      (OutsideUnit p.x ∧ pass.sampler.widthMode = .decal ∨
        OutsideUnit p.y ∧ pass.sampler.heightMode = .decal)

/-- In place of what is outside the texture, the pass reads its edge: the program takes what the
    sampler reads, and the sampler clamps along both axes. -/
structure Pass.ReadsEdge (pass : Pass Rat) : Prop where
  pipeline : pass.pipeline = .fill
  widthMode : pass.sampler.widthMode = .clampToEdge
  heightMode : pass.sampler.heightMode = .clampToEdge

/-- All that the quad of the pass shows from outside its texture is transparent black. -/
def Pass.HasTransparentGutter (pass : Pass Rat) (capabilities : Capabilities) : Prop :=
  let coords : Quad Rat := pass.vertices.map (·.textureCoords)
  ∀ u, (⟨0, 0, 1, 1⟩ : Rect Rat).Covers u →
    OutsideUnit (coords.interpolate u).x ∨ OutsideUnit (coords.interpolate u).y →
      pass.ReadsTransparent capabilities (coords.interpolate u)

theorem not_outsideUnit {x : Rat} (h0 : 0 ≤ x) (h1 : x ≤ 1) : ¬OutsideUnit x := by
  rintro (h | h)
  · exact h0.not_gt h
  · exact h1.not_gt h

theorem TileMode.addressMode_eq_decal_iff (mode : TileMode) (capabilities : Capabilities) :
    mode.addressMode capabilities = .decal ↔
      mode = .decal ∧ capabilities.decalAddressing = true := by
  cases mode with
  | clamp | wrap | mirror => simp [addressMode]
  | decal => simp [addressMode]

/-! ## The copy of the source -/

namespace Blur

variable (b : Blur Rat) (capabilities : Capabilities) (sampler : Sampler) {s : Size}

/-- The copy reads transparent black only through its sampler, which takes a decal blur and a
    device that can address it. -/
theorem readsTransparent_downsample (source : Source Rat) (p : Vec2 Rat) :
    (b.downsample capabilities source).ReadsTransparent capabilities p ↔
      (b.tileMode = .decal ∧ capabilities.decalAddressing = true) ∧
        (OutsideUnit p.x ∨ OutsideUnit p.y) := by
  have hpipeline : (b.downsample capabilities source).pipeline = .fill := rfl
  have hwidth : (b.downsample capabilities source).sampler.widthMode =
      b.tileMode.addressMode capabilities := rfl
  have hheight : (b.downsample capabilities source).sampler.heightMode =
      b.tileMode.addressMode capabilities := rfl
  rw [Pass.ReadsTransparent, hpipeline, hwidth, hheight, TileMode.addressMode_eq_decal_iff]
  grind

/-- Where no sampler can address transparent black, the copy for a decal blur reads the edge. -/
theorem readsEdge_downsample (source : Source Rat) (hdecal : b.tileMode = .decal)
    (hclamps : capabilities.decalAddressing = false) :
    (b.downsample capabilities source).ReadsEdge := by
  have hmode : b.tileMode.addressMode capabilities = .clampToEdge := by
    rw [hdecal, TileMode.addressMode, if_neg (by simp [hclamps])]
  exact ⟨rfl, hmode, hmode⟩

/-- The blurring passes of a decal blur read transparent black by their program where no sampler
    can. -/
theorem readsTransparent_axisStage {source : Source Rat} {label : String} {kernel : AxisKernel Rat}
    {pass : Pass Rat} (hdraw : b.axisStage capabilities source label kernel = .draw pass)
    (hdecal : b.tileMode = .decal) (hclamps : capabilities.decalAddressing = false)
    (p : Vec2 Rat) : pass.ReadsTransparent capabilities p := by
  rw [axisStage] at hdraw
  split at hdraw
  · cases hdraw
  · cases hdraw
    exact .inl (if_pos ⟨hdecal, by simp [hclamps]⟩)

/-- What the copy of a source that is not placed shows at `u`, in texels. -/
theorem downsample_interpolate (hsize : s.isEmpty = false) (u : Vec2 Rat) :
    let coords : Quad Rat :=
      (b.downsample capabilities ⟨s, .identity, sampler⟩).vertices.map (·.textureCoords)
    (coords.interpolate u).x * s.width.toNat =
        sampledAt s.width.toNat b.extent.padding.x (u.x * s.width.toNat) ∧
      (coords.interpolate u).y * s.height.toNat =
        sampledAt s.height.toNat b.extent.padding.y (u.y * s.height.toNat) := by
  intro coords
  have htexels : coords.interpolate u * s.toVec2 = _ :=
    Quad.interpolate_withGutter Matrix4.isAffine_identity hsize b.extent.padding u
  rw [Matrix4.transformPoint_identity] at htexels
  exact ⟨congrArg Vec2.x htexels, congrArg Vec2.y htexels⟩

/-- At the start of the quad, a gutter is outside. -/
theorem outsideUnit_of_sampledAt_zero {w pad x : Rat} (hw : 0 < w) (hpad : 0 < pad)
    (h : x * w = sampledAt w pad (0 * w)) : OutsideUnit x := by
  have hsampled : x * w = -pad := by
    rw [h, sampledAt]
    ring
  left
  by_contra hx
  have : 0 ≤ x * w := mul_nonneg (not_lt.1 hx) hw.le
  linarith

/-- Without a gutter, the quad shows the texture as it is. -/
theorem eq_of_sampledAt_zero_padding {w x u : Rat} (hw : 0 < w)
    (h : x * w = sampledAt w 0 (u * w)) : x = u := by
  have hsampled : sampledAt w 0 (u * w) = u * w := by
    unfold sampledAt
    field_simp
    ring
  exact mul_right_cancel₀ hw.ne' (h.trans hsampled)

/-- The copy of a source that is not placed has a transparent gutter where the sampler can see to
    it, or where there is no gutter. -/
theorem hasTransparentGutter_downsample_iff (hsize : s.isEmpty = false) :
    (b.downsample capabilities ⟨s, .identity, sampler⟩).HasTransparentGutter capabilities ↔
      b.tileMode = .decal ∧ capabilities.decalAddressing = true ∨ b.extent.padding = ⟨0, 0⟩ := by
  obtain ⟨hpadX, hpadY⟩ := b.extent.padding_nonneg
  obtain ⟨hwidth, hheight⟩ := Size.lengths_ne_zero hsize
  have hw : (0 : Rat) < s.width.toNat := by positivity
  have hl : (0 : Rat) < s.height.toNat := by positivity
  simp only [Pass.HasTransparentGutter, readsTransparent_downsample]
  constructor
  · intro h
    rcases hpadX.eq_or_lt with hx | hx
    · rcases hpadY.eq_or_lt with hy | hy
      · exact .inr (congrArg₂ Vec2.mk hx.symm hy.symm)
      · have hcorner := (b.downsample_interpolate capabilities sampler hsize ⟨0, 0⟩).2
        exact .inl (h ⟨0, 0⟩ (by decide) (.inr (outsideUnit_of_sampledAt_zero hl hy hcorner))).1
    · have hcorner := (b.downsample_interpolate capabilities sampler hsize ⟨0, 0⟩).1
      exact .inl (h ⟨0, 0⟩ (by decide) (.inl (outsideUnit_of_sampledAt_zero hw hx hcorner))).1
  · rintro (hdecal | hpadding) u hu houtside
    · exact ⟨hdecal, houtside⟩
    · obtain ⟨hx, hy⟩ := b.downsample_interpolate capabilities sampler hsize u
      rw [hpadding] at hx hy
      rw [eq_of_sampledAt_zero_padding hw hx, eq_of_sampledAt_zero_padding hl hy] at houtside
      rcases houtside with hout | hout
      · exact absurd hout (not_outsideUnit hu.left hu.right)
      · exact absurd hout (not_outsideUnit hu.top hu.bottom)

end Blur

/-! ## Runs -/

/-- A chain that has a pass to render begins with a call for it, and the other calls are for the
    passes after it. -/
theorem Chained.exists_cons {α σ τ : Type} {r : SubpassRenderer α σ τ} {s final : σ} {t : τ}
    {pass : Pass α} {passes : List (Pass α)} {calls : List (Call α τ)}
    {outcome : Except RenderError τ} (h : Chained r s t (pass :: passes) calls outcome final) :
    ∃ answer later, calls = ⟨⟨pass, t⟩, answer⟩ :: later ∧
      ∀ call ∈ later, call.subpass.toPass ∈ passes := by
  cases h with
  | failed => exact ⟨_, [], rfl, List.forall_mem_nil _⟩
  | rendered _ hchain => exact ⟨_, _, rfl, hchain.pass_mem⟩

namespace Blur

section

variable {σ τ : Type} (b : Blur Rat) (r : SubpassRenderer Rat σ τ) (entity : Entity Rat)
  (input : FilterInput Rat σ τ) (rest : List (FilterInput Rat σ τ)) (effect : Matrix4 Rat)
  (hint : Option (Rect Rat)) {s after : Logged Rat σ} {snapshot : Snapshot Rat τ}

/-- The calls of a visible blur begin with the copy of its snapshot, and the others are for its
    blurring passes. -/
theorem exists_calls_eq_downsample
    (hsnapshot : (input.snapshot "Gaussian Blur Snapshot" entity
      (b.inputLimit entity effect hint)).runFrom s = (.ok (some snapshot), after))
    (hsize : (r.size snapshot.texture).isEmpty = false) (hnoop : b.extent.isNoop = false) :
    let source : Source Rat :=
      ⟨r.size snapshot.texture, input.localTransform entity, snapshot.sampler⟩
    let capabilities := r.capabilities after.state
    ∃ answer blurs, b.calls r (input :: rest) entity effect hint s =
        ⟨⟨b.downsample capabilities source, snapshot.texture⟩, answer⟩ :: blurs ∧
      ∀ blur ∈ blurs, ∃ label kernel,
        b.axisStage capabilities source label kernel = .draw blur.subpass.toPass := by
  intro source capabilities
  have hunseen : (input.unseen.snapshot "Gaussian Blur Snapshot" entity
      (b.inputLimit entity effect hint)).runFrom (s.watched : Logged Rat (Watched Rat σ τ)) = _ :=
    Action.runFrom_unseen hsnapshot
  obtain ⟨calls, outcome, final, hrun, hcalls, hchain⟩ := b.renderSnapshot_chained r entity
    (input.localTransform entity) hsize hnoop ⟨⟨after.state, []⟩, after.log⟩
  have hrender : (b.render r.watched ((input :: rest).map .unseen) entity effect hint).runFrom
      s.watched = _ := (Action.runFrom_bind_ok hunseen _).trans hrun
  have hpasses : Stage.passes (b.stages capabilities source) =
      b.downsample capabilities source :: Stage.passes (b.stages capabilities source).tail := rfl
  obtain ⟨answer, blurs, rfl, hblurs⟩ := Chained.exists_cons (hpasses ▸ hchain)
  refine ⟨answer, blurs, ?_, fun blur hblur => ?_⟩
  · rw [Blur.calls, hrender, hcalls]
    rfl
  · -- The other two stages are blurs along an axis.
    rcases List.mem_pair.1 (Stage.mem_passes.1 (hblurs blur hblur)) with hvertical | hhorizontal
    · exact ⟨_, _, hvertical.symm⟩
    · exact ⟨_, _, hhorizontal.symm⟩

/-- A visible blur of a source that is not placed copies it first. The copy has a transparent
    gutter for a decal blur on a device with decal addressing, and otherwise only where it has no
    gutter at all. A decal blur on another device falls back to the edge of the source in the
    gutter, and what its blurring passes read outside of the copy is transparent. -/
theorem render_gutter_iff
    (hsnapshot : (input.snapshot "Gaussian Blur Snapshot" entity
      (b.inputLimit entity effect hint)).runFrom s = (.ok (some snapshot), after))
    (hplacement : input.localTransform entity = .identity)
    (hsize : (r.size snapshot.texture).isEmpty = false) (hnoop : b.extent.isNoop = false) :
    let capabilities := r.capabilities after.state
    ∃ copy blurs, b.calls r (input :: rest) entity effect hint s = copy :: blurs ∧
      copy.subpass.label = "Gaussian Blur Downsample" ∧
      copy.subpass.input = snapshot.texture ∧
      (copy.subpass.HasTransparentGutter capabilities ↔
        b.tileMode = .decal ∧ capabilities.decalAddressing = true ∨ b.extent.padding = ⟨0, 0⟩) ∧
      (b.tileMode = .decal → capabilities.decalAddressing = false →
        copy.subpass.ReadsEdge ∧
          ∀ blur ∈ blurs, ∀ p : Vec2 Rat, OutsideUnit p.x ∨ OutsideUnit p.y →
            blur.subpass.ReadsTransparent capabilities p) := by
  intro capabilities
  obtain ⟨answer, blurs, hcalls, hblurs⟩ :=
    b.exists_calls_eq_downsample r entity input rest effect hint hsnapshot hsize hnoop
  rw [hplacement] at hcalls
  refine ⟨_, blurs, hcalls, rfl, rfl,
    b.hasTransparentGutter_downsample_iff _ snapshot.sampler hsize, fun hdecal hclamps => ?_⟩
  refine ⟨b.readsEdge_downsample capabilities _ hdecal hclamps, fun blur hblur p _ => ?_⟩
  obtain ⟨label, kernel, hdraw⟩ := hblurs blur hblur
  exact b.readsTransparent_axisStage capabilities hdraw hdecal hclamps p

end

/-- Eight by eight pixels, on a device with decal addressing and on one without it. -/
theorem render_gutter_ofOne :
    let r := { exactSizes with capabilities := fun _ => ⟨true⟩ }
    (∃ copy blurs,
      ofOne.calls r [eightPixels .identity] default .identity none ⟨(), []⟩ = copy :: blurs ∧
      copy.subpass.HasTransparentGutter ⟨true⟩) ∧
    ∃ copy blurs, exactCallsOfOne .identity = copy :: blurs ∧ blurs.length = 2 ∧
      copy.subpass.ReadsEdge ∧ ∀ blur ∈ blurs, ∀ p : Vec2 Rat, OutsideUnit p.x ∨ OutsideUnit p.y →
        blur.subpass.ReadsTransparent ⟨false⟩ p := by
  intro r
  have hnoop : ofOne.extent.isNoop = false := by decide +kernel
  constructor
  · obtain ⟨copy, blurs, hcalls, -, -, hgutter, -⟩ := ofOne.render_gutter_iff r default
      (eightPixels .identity) [] .identity none (FilterInput.snapshot_ofTexture _ _ _ _ _ _ _) rfl
      (by decide) hnoop
    exact ⟨copy, blurs, hcalls, hgutter.2 (.inl ⟨rfl, rfl⟩)⟩
  · obtain ⟨copy, blurs, hcalls, -, -, -, hfallback⟩ := ofOne.render_gutter_iff exactSizes default
      (eightPixels .identity) [] .identity none (FilterInput.snapshot_ofTexture _ _ _ _ _ _ _) rfl
      (by decide) hnoop
    have hcalls : exactCallsOfOne .identity = copy :: blurs := hcalls
    have hlength : (exactCallsOfOne .identity).length = 3 := by decide +kernel
    rw [hcalls] at hlength
    exact ⟨copy, blurs, hcalls, Nat.succ.inj hlength, hfallback rfl rfl⟩

/-- On the device without decal addressing, the gutter of their decal blur is not transparent: at
    the corner of its quad the copy reads one texel outside, through a sampler that clamps. -/
theorem gutter_clamps_without_addressing :
    exactSizes.capabilities () = ⟨false⟩ ∧ ofOne.tileMode = .decal ∧
    ofOne.extent.isNoop = false ∧
    ∃ copy calls, exactCallsOfOne .identity = copy :: calls ∧
      copy.subpass.pipeline = .fill ∧
      copy.subpass.sampler.widthMode = .clampToEdge ∧
      copy.subpass.sampler.heightMode = .clampToEdge ∧
      ¬copy.subpass.HasTransparentGutter ⟨false⟩ := by
  have hnoop : ofOne.extent.isNoop = false := by decide +kernel
  obtain ⟨answer, calls, hcalls, -⟩ := ofOne.exists_calls_eq_downsample exactSizes default
    (eightPixels .identity) [] .identity none (FilterInput.snapshot_ofTexture _ _ _ _ _ _ _)
    (by decide) hnoop
  refine ⟨rfl, rfl, hnoop, _, calls, hcalls, rfl, rfl, rfl, ?_⟩
  intro hgutter
  have hsome := (ofOne.hasTransparentGutter_downsample_iff ⟨false⟩ .linearClamp
    (s := ⟨8, 8⟩) (by decide)).1 hgutter
  exact absurd hsome (by decide +kernel)

end Blur

end SeparableBlur
