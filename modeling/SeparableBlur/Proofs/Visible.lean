-- SUMMARY: A visible blur blurs: it renders at least one blurring stage, and its strongest axis keeps nearly the threshold sigma.
import SeparableBlur.Proofs.Gutter
import SeparableBlur.Proofs.KernelCost

/-!
# Visible blurs

Whether a blur is visible is decided by its sigmas, and whether a stage is rendered
by what is left of a sigma at the scale that the target has achieved. The two
thresholds do not get in each other's way. At the full resolution the sigmas are
left as they are. At a lower one the stronger axis keeps a sigma near the threshold
of the resolution, since half a pixel of its padded length is little next to its
sigma, and so its stage is rendered.
-/

namespace SeparableBlur

open Format (single single_nearest_quarter)

/-! ## Chains -/

section

variable {α σ τ : Type} {r : SubpassRenderer α σ τ} {s final : σ} {t : τ} {passes : List (Pass α)}
  {calls : List (Call α τ)} {outcome : Except RenderError τ}

/-- A chain of calls comes to the answer of the last call, or else to the texture it began with. -/
theorem Chained.getLast?_answers (h : Chained r s t passes calls outcome final) :
    (.ok t :: calls.map Call.answer).getLast? = some outcome := by
  induction h with
  | done => rfl
  | failed => rfl
  | rendered _ _ ih => exact List.getLast?_cons_cons.trans ih

/-- A chain in which no call fails has a call for each pass. -/
theorem Chained.map_toPass (h : Chained r s t passes calls outcome final)
    (hok : ∀ call ∈ calls, call.answer.isOk) :
    calls.map (fun call => call.subpass.toPass) = passes := by
  induction h with
  | done => rfl
  | failed => cases hok _ List.mem_cons_self
  | rendered _ _ ih =>
    rw [List.forall_mem_cons] at hok
    rw [List.map_cons, ih hok.2]

/-- In a chain of more than one pass in which no call fails, the last call is for a pass after the
    first, and its answer is what the chain comes to. -/
theorem Chained.exists_last {first : Pass α} (h : Chained r s t (first :: passes) calls outcome final)
    (hok : ∀ call ∈ calls, call.answer.isOk) (hne : passes ≠ []) :
    calls.length = passes.length + 1 ∧ ∃ last, calls.getLast? = some last ∧
      last.subpass.toPass ∈ passes ∧ last.answer = outcome := by
  have hpasses := h.map_toPass hok
  obtain ⟨last, hlast⟩ : ∃ last, calls.getLast? = some last := by
    rw [← Option.isSome_iff_exists, List.getLast?_isSome]
    rintro rfl
    cases hpasses
  refine ⟨?_, last, hlast, ?_, ?_⟩
  · simpa using congrArg List.length hpasses
  · have hlastPass : (first :: passes).getLast? = some last.subpass.toPass := by
      rw [← hpasses, List.getLast?_map, hlast]
      rfl
    rw [List.getLast?_cons_of_ne_nil hne] at hlastPass
    exact List.mem_of_getLast? hlastPass
  · have hanswers := h.getLast?_answers
    rw [List.getLast?_cons_of_ne_nil, List.getLast?_map, hlast] at hanswers
    · exact Option.some.inj hanswers
    · rintro hnil
      rw [List.map_eq_nil_iff.1 hnil] at hlast
      cases hlast

end

/-- Two or three calls were made, and the output is what the last of them rendered, which is a
    blur. -/
def EndsInBlur {α τ : Type} (calls : List (Call α τ))
    (result : Except RenderError (Option (Output α τ))) : Prop :=
  (calls.length = 2 ∨ calls.length = 3) ∧
    ∃ last output, calls.getLast? = some last ∧ last.subpass.pipeline ≠ .fill ∧
      last.answer = .ok output.texture ∧ result = .ok (some output)

namespace Blur

theorem pipeline_ne_fill {α : Type} (b : Blur α) (capabilities : Capabilities) :
    b.pipeline capabilities ≠ .fill := by
  unfold pipeline
  split <;> nofun

/-- The passes after the copy, for a blur with an axis that is strong enough. -/
theorem Issues.blurs {α σ τ : Type} [Scalar α] {b : Blur α} {r : SubpassRenderer α σ τ}
    {entity : Entity α} {snapshot : Snapshot α τ} {s final : σ} {calls : List (Call α τ)}
    {result : Except RenderError (Option (Output α τ))}
    (h : b.Issues r entity snapshot s calls result final)
    (hstrong : ¬(b.horizontalKernel (r.size snapshot.texture)).sigma < Kernel.epsilon ∨
      ¬(b.verticalKernel (r.size snapshot.texture)).sigma < Kernel.epsilon) :
    ∃ down passes outcome, ∃ output : τ → Output α τ,
      (passes.length = 1 ∨ passes.length = 2) ∧ (∀ pass ∈ passes, pass.pipeline ≠ .fill) ∧
      Chained r s snapshot.texture (down :: passes) calls outcome final ∧
      (∀ texture, (output texture).texture = texture) ∧
      result = outcome.map fun texture => some (output texture) := by
  obtain ⟨down, vertical, horizontal, outcome, -, hvertical, hhorizontal, hchain, hresult⟩ := h
  refine ⟨down, _, outcome, _, ?_, ?_, hchain, fun _ => rfl, hresult⟩
  · split <;> split <;> first | exact .inl rfl | exact .inr rfl | skip
    rename_i hv hh
    exact hstrong.elim (absurd hh) (absurd hv)
  · have hfill := b.pipeline_ne_fill (r.capabilities s)
    rw [List.forall_mem_append]
    constructor
    · split
      · simp
      · simpa [hvertical.pipeline] using hfill
    · split
      · simp
      · simpa [hhorizontal.pipeline] using hfill

/-- Such a blur ends in the blur along one of its axes, if no call fails. -/
theorem Issues.endsInBlur {α σ τ : Type} [Scalar α] {b : Blur α} {r : SubpassRenderer α σ τ}
    {entity : Entity α} {snapshot : Snapshot α τ} {s final : σ} {calls : List (Call α τ)}
    {result : Except RenderError (Option (Output α τ))}
    (h : b.Issues r entity snapshot s calls result final)
    (hstrong : ¬(b.horizontalKernel (r.size snapshot.texture)).sigma < Kernel.epsilon ∨
      ¬(b.verticalKernel (r.size snapshot.texture)).sigma < Kernel.epsilon)
    (hok : ∀ call ∈ calls, call.answer.isOk) : EndsInBlur calls result := by
  obtain ⟨down, passes, outcome, output, hlength, hblurs, hchain, houtput, rfl⟩ := h.blurs hstrong
  have hne : passes ≠ [] := by
    rintro rfl
    rcases hlength with h | h <;> cases h
  obtain ⟨hcount, last, hlast, hpass, hanswer⟩ := hchain.exists_last hok hne
  cases outcome with
  | error e =>
    have hlastOk := hok last (List.mem_of_getLast? hlast)
    rw [hanswer] at hlastOk
    cases hlastOk
  | ok texture =>
    refine ⟨?_, last, output texture, hlast, hblurs _ hpass, ?_, rfl⟩
    · omega
    · rw [hanswer, houtput]

end Blur

/-! ## Corrected sigmas -/

namespace Kernel

theorem sevenHalves_toRat? : (Scalar.ofRat 3.5 : Binary32).toRat? = some (7 / 2) := by
  decide +kernel

namespace Axis

variable {request : Binary32} {s r k : Rat} {p : Nat}

/-- Half a pixel of the padded length is little next to the sigma, so a resolution that brings the
    sigma to the threshold leaves most of that. -/
theorem le_scaled (h : Axis request s r p) {a : Rat} (hk1 : k ≤ 1) (hks : 3.9999 ≤ k * s)
    (ha : k - 1 / 2 * (1 / (1 + 2 * p)) - 1 / 10 ^ 6 ≤ a) : 7 / 2 ≤ s * a := by
  have hs92 := h.sigma_le
  have hs : 2 < s := by
    have : k * s ≤ 1 * s := mul_le_mul_of_nonneg_right hk1 h.sigma_nonneg
    linarith
  obtain ⟨-, hlarge, -⟩ := h.pixel_le (q := 1 / (1 + 2 * p)) (by positivity) (by field_simp)
  have hpixel := hlarge hs
  have hsa := mul_le_mul_of_nonneg_left ha h.sigma_nonneg
  linarith

/-- The corrected sigma of an axis that the resolution was chosen for. -/
theorem le_corrected (h : Axis request s r p) {source : UInt32} {resolution : Binary32}
    (hsource : source ≠ 0) (hk : resolution.toRat? = some k) (hk0 : 0 ≤ k) (hk1 : k ≤ 1)
    (hks : 3.9999 ≤ k * s) :
    Scalar.ofRat 3.5 ≤ falloff request * TargetPlan.achievedOn (TargetPlan.paddedLength source
      (Scalar.ceil (Kernel.radius (falloff request)))) resolution := by
  obtain ⟨a, ha, ha0, ha1, -, hlow⟩ :=
    TargetPlan.achievedOn_toRat? hsource h.padding h.padding_le hk hk0 hk1
  have hsa : s * a ≤ s * 1 := mul_le_mul_of_nonneg_left ha1 h.sigma_nonneg
  have hs92 := h.sigma_le
  obtain ⟨v, hv, e⟩ := Binary32.mul_rounded 92 h.sigma ha (by
    rw [abs_of_nonneg (mul_nonneg h.sigma_nonneg ha0)]; linarith) (by norm_num)
  have hgrid : single.nearest (7 / 2) = 7 / 2 := by
    simpa [show (14 / 4 : Rat) = 7 / 2 by norm_num] using single_nearest_quarter (z := 14) (by norm_num)
  exact (Binary.le_iff_of_toRat? sevenHalves_toRat? hv).2 (e.ge hgrid (h.le_scaled hk1 hks hlow))

/-- Nothing is corrected where nothing is scaled. -/
theorem le_mul_one (h : Axis request s r p) {limit : Binary32} {e : Rat}
    (he : limit.toRat? = some e) (hlimit : ¬falloff request < limit) :
    limit ≤ falloff request * 1 := by
  have hs92 := h.sigma_le
  have hmul := Binary.toRat?_mul h.sigma one_toRat? (Format.single_inRange (by
    rw [mul_one, abs_of_nonneg h.sigma_nonneg]; linarith))
  rw [mul_one, Binary.nearest_of_toRat? h.sigma] at hmul
  rw [Binary.lt_iff_of_toRat? h.sigma he, not_lt] at hlimit
  exact (Binary.le_iff_of_toRat? he hmul).2 hlimit

end Axis

end Kernel

namespace Blur

variable (b : Blur Binary32) {source : Size}

/-- At a resolution below one, the stronger axis keeps a sigma near the threshold. -/
theorem le_corrected (hsource : source.isEmpty = false) (h : b.extent.resolution < 1) :
    (b.extent.sigma.y ≤ b.extent.sigma.x →
      Scalar.ofRat 3.5 ≤ b.extent.sigma.x * (b.target source).achieved.x) ∧
    (b.extent.sigma.x ≤ b.extent.sigma.y →
      Scalar.ofRat 3.5 ≤ b.extent.sigma.y * (b.target source).achieved.y) := by
  obtain ⟨hwidth, hheight⟩ := Size.dimensions_ne_zero hsource
  obtain ⟨x, _, _, hx⟩ := Kernel.exists_axis b.sigma.x
  obtain ⟨y, _, _, hy⟩ := Kernel.exists_axis b.sigma.y
  obtain ⟨k, hk, hk0, hk1, -, -, hmin⟩ := b.resolution_toRat? hx hy
  rw [Binary.lt_iff_of_toRat? hk Kernel.one_toRat?] at h
  have hmin := hmin.resolve_left h.ne
  constructor
  · intro hle
    rw [max_eq_left ((Binary.le_iff_of_toRat? hy.sigma hx.sigma).1 hle)] at hmin
    exact hx.le_corrected hwidth hk hk0 hk1 hmin
  · intro hle
    rw [max_eq_right ((Binary.le_iff_of_toRat? hx.sigma hy.sigma).1 hle)] at hmin
    exact hy.le_corrected hheight hk hk0 hk1 hmin

/-- At the full resolution the sigmas stay as they are. -/
theorem achieved_eq_one (hsource : source.isEmpty = false)
    (h : b.extent.resolution.toRat? = some 1) :
    (b.target source).achieved.x = 1 ∧ (b.target source).achieved.y = 1 := by
  obtain ⟨hwidth, hheight⟩ := Size.dimensions_ne_zero hsource
  obtain ⟨x, _, _, hx⟩ := Kernel.exists_axis b.sigma.x
  obtain ⟨y, _, _, hy⟩ := Kernel.exists_axis b.sigma.y
  obtain ⟨k, hk, -, -, hkx, hky, -⟩ := b.resolution_toRat? hx hy
  obtain rfl : k = 1 := Option.some.inj (hk.symm.trans h)
  have hfullX := (TargetPlan.axis_usable hwidth hx.sigma hx.sigma_nonneg hk (by norm_num) le_rfl hkx).2
  have hfullY := (TargetPlan.axis_usable hheight hy.sigma hy.sigma_nonneg hk (by norm_num) le_rfl hky).2
  exact ⟨(hfullX rfl).1, (hfullY rfl).1⟩

/-- A blur that is visible has an axis that is strong enough at the scale of the target. -/
theorem exists_strong (hvisible : b.extent.isNoop = false) (hsource : source.isEmpty = false) :
    Kernel.epsilon ≤ b.extent.sigma.x * (b.target source).achieved.x ∨
      Kernel.epsilon ≤ b.extent.sigma.y * (b.target source).achieved.y := by
  obtain ⟨x, _, _, hx⟩ := Kernel.exists_axis b.sigma.x
  obtain ⟨y, _, _, hy⟩ := Kernel.exists_axis b.sigma.y
  obtain ⟨k, hk, -, hk1, -⟩ := b.resolution_toRat? hx hy
  rcases hk1.eq_or_lt with rfl | hlt
  · obtain ⟨ε, hε⟩ := Kernel.epsilon_toRat?
    obtain ⟨hachievedX, hachievedY⟩ := b.achieved_eq_one hsource hk
    have hsigma : ¬(b.extent.sigma.x < Kernel.epsilon ∧ b.extent.sigma.y < Kernel.epsilon) := by
      simpa [Extent.isNoop] using hvisible
    rw [not_and_or] at hsigma
    rw [hachievedX, hachievedY]
    exact hsigma.imp (hx.le_mul_one hε) (hy.le_mul_one hε)
  · have hepsilon : (Kernel.epsilon : Binary32) ≤ Scalar.ofRat 3.5 := by decide +kernel
    obtain ⟨hcorrectedX, hcorrectedY⟩ :=
      b.le_corrected hsource ((Binary.lt_iff_of_toRat? hk Kernel.one_toRat?).2 hlt)
    rcases le_total y x with hle | hle
    · have hyx := (Binary.le_iff_of_toRat? hy.sigma hx.sigma).2 hle
      exact .inl (Binary.le_trans hepsilon (hcorrectedX hyx))
    · have hxy := (Binary.le_iff_of_toRat? hx.sigma hy.sigma).2 hle
      exact .inr (Binary.le_trans hepsilon (hcorrectedY hxy))

/-- A visible blur of a source with pixels has an axis that is strong enough at the scale of the
    target, and at a resolution below one the stronger axis keeps a sigma near the threshold. So
    it ends in a blur along one of its axes, unless one of its calls fails. -/
theorem visible_blurs (hvisible : b.extent.isNoop = false) (hsource : source.isEmpty = false) :
    let e := b.extent
    let scale := (b.target source).achieved
    (Kernel.epsilon ≤ e.sigma.x * scale.x ∨ Kernel.epsilon ≤ e.sigma.y * scale.y) ∧
    (e.resolution < 1 →
      (e.sigma.y ≤ e.sigma.x → Scalar.ofRat 3.5 ≤ e.sigma.x * scale.x) ∧
      (e.sigma.x ≤ e.sigma.y → Scalar.ofRat 3.5 ≤ e.sigma.y * scale.y)) ∧
    ∀ {σ τ : Type} (r : SubpassRenderer Binary32 σ τ) (input : FilterInput Binary32 σ τ)
      (rest : List (FilterInput Binary32 σ τ)) (entity : Entity Binary32)
      (effect : Matrix4 Binary32) (hint : Option (Rect Binary32)) (s after : Logged Binary32 σ)
      (snapshot : Snapshot Binary32 τ),
      (input.snapshot "Gaussian Blur Snapshot" entity (b.inputLimit entity effect hint)).runFrom s =
        (.ok (some snapshot), after) →
      r.size snapshot.texture = source →
      (∀ call ∈ b.calls r (input :: rest) entity effect hint s, call.answer.isOk) →
      EndsInBlur (b.calls r (input :: rest) entity effect hint s)
        ((b.render r (input :: rest) entity effect hint).runFrom s).1 := by
  have hstrong := b.exists_strong hvisible hsource
  refine ⟨hstrong, b.le_corrected hsource, ?_⟩
  rintro σ τ r input rest entity effect hint s after snapshot hsnapshot rfl hok
  obtain ⟨calls, result, final, log, hcalls, hrun, hrenders⟩ :=
    b.renders r entity (input :: rest) effect hint s
  rw [hcalls] at hok ⊢
  rw [hrun]
  rcases hrenders.of_snapshot hsnapshot hsource with ⟨hweak, -⟩ | ⟨-, hissues⟩
  · cases hweak.symm.trans hvisible
  · refine hissues.endsInBlur ?_ hok
    exact hstrong.imp Binary.not_lt_of_le Binary.not_lt_of_le

/-- One pixel, blurred along one axis: the other axis shrinks with it. -/
theorem visible_blurs_of_pixel :
    let b : Blur Binary32 := ⟨⟨Scalar.ofRat 10, 0⟩, .decal⟩
    let pixel : Size := ⟨1, 1⟩
    let inputs : List (FilterInput Binary32 Unit Size) := [.ofTexture pixel pixel .identity]
    b.extent.isNoop = false ∧ pixel.isEmpty = false ∧ b.extent.resolution < 1 ∧
      Scalar.ofRat 3.5 ≤ b.extent.sigma.x * (b.target pixel).achieved.x ∧
      (∀ call ∈ b.calls sizesOnly inputs default .identity none ⟨(), []⟩, call.answer.isOk) ∧
      EndsInBlur (b.calls sizesOnly inputs default .identity none ⟨(), []⟩)
        ((b.render sizesOnly inputs default .identity none).runFrom ⟨(), []⟩).1 := by
  intro b pixel inputs
  have hvisible : b.extent.isNoop = false := by decide +kernel
  have hresolution : b.extent.resolution < 1 := by decide +kernel
  have hok : ∀ call ∈ b.calls sizesOnly inputs default .identity none ⟨(), []⟩,
      call.answer.isOk := by decide +kernel
  obtain ⟨-, hcorrected, hrender⟩ := b.visible_blurs hvisible (show pixel.isEmpty = false from rfl)
  exact ⟨hvisible, rfl, hresolution, (hcorrected hresolution).1 (by decide +kernel), hok,
    hrender sizesOnly _ _ _ _ _ _ _ _ rfl rfl hok⟩

end Blur

end SeparableBlur
