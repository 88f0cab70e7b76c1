-- SUMMARY: When a stage is refused and with which error, and what a stage changes about the pool otherwise.
import SeparableBlur.Proofs.Demand
import SeparableBlur.Proofs.Serving

/-!
# Refused stages

A stage is refused for one of three causes, and the first of them is reported.
`Refuses` pairs each error with the cause that it stands for and with the absence
of those before it.

A refused stage leaves the renderer and its log as they were. Any other is given
one target, and the pool has more textures afterwards only if none was free that
would do. Both hold in every state that a session reaches.
-/

namespace SeparableBlur

/-! ## Causes -/

namespace Pass

variable {α : Type}

/-- The target of the pass has no pixels. -/
def IsEmpty (pass : Pass α) : Prop := pass.size.width = 0 ∨ pass.size.height = 0

/-- The target of the pass is larger than `limit` on an axis. -/
def Exceeds (pass : Pass α) (limit : UInt32) : Prop :=
  limit < pass.size.width ∨ limit < pass.size.height

/-- The pass blurs and has no kernel to blur with. -/
def LacksKernel (pass : Pass α) : Prop :=
  (pass.pipeline = .blur ∨ pass.pipeline = .decalBlur) ∧ pass.kernel = none

theorem isEmpty_iff (pass : Pass α) : pass.size.isEmpty = true ↔ pass.IsEmpty := by
  simp [Size.isEmpty, IsEmpty]

theorem isEmpty_eq_false_iff (pass : Pass α) : pass.size.isEmpty = false ↔ ¬pass.IsEmpty := by
  rw [← isEmpty_iff, Bool.not_eq_true]

theorem lacksKernel_iff (pass : Pass α) :
    pass.pipeline ≠ .fill ∧ pass.kernel.isNone = true ↔ pass.LacksKernel := by
  rw [LacksKernel, Option.isNone_iff_eq_none]
  cases pass.pipeline <;> simp

end Pass

namespace Gpu

/-- The error that a pass is refused with where textures may have up to `limit` pixels on an
    axis. -/
inductive Refuses (limit : UInt32) (pass : Pass Binary32) : RenderError → Prop where
  | emptyTarget : pass.IsEmpty → Refuses limit pass (.emptyTarget pass.label pass.size)
  | exceedsLimit : ¬pass.IsEmpty → pass.Exceeds limit →
      Refuses limit pass (.subpassFailed pass.label (.exceedsLimit pass.size limit))
  | missingKernel : ¬pass.IsEmpty → ¬pass.Exceeds limit → pass.LacksKernel →
      Refuses limit pass (.subpassFailed pass.label .missingKernel)

variable {limit : UInt32} {pass : Pass Binary32}

/-- Each of the causes is enough. -/
theorem exists_refuses_iff :
    (∃ e, Refuses limit pass e) ↔ pass.IsEmpty ∨ pass.Exceeds limit ∨ pass.LacksKernel := by
  constructor
  · rintro ⟨_, hempty | ⟨-, hexceeds⟩ | ⟨-, -, hkernel⟩⟩
    · exact .inl hempty
    · exact .inr (.inl hexceeds)
    · exact .inr (.inr hkernel)
  · intro hcause
    by_cases hempty : pass.IsEmpty
    · exact ⟨_, .emptyTarget hempty⟩
    by_cases hexceeds : pass.Exceeds limit
    · exact ⟨_, .exceedsLimit hempty hexceeds⟩
    have hkernel := (hcause.resolve_left hempty).resolve_left hexceeds
    exact ⟨_, .missingKernel hempty hexceeds hkernel⟩

theorem Refuses.refusal?_eq {r : Renderer} {e : RenderError} (h : Refuses r.maxDimension pass e) :
    r.refusal? pass = some e := by
  cases h with
  | emptyTarget hempty => rw [Renderer.refusal?, if_pos (pass.isEmpty_iff.2 hempty)]
  | exceedsLimit hempty hexceeds =>
    exact refusal?_of_exceeds (pass.isEmpty_eq_false_iff.2 hempty) hexceeds
  | missingKernel hempty hexceeds hkernel =>
    unfold Pass.Exceeds at hexceeds
    rw [Renderer.refusal?, if_neg (mt pass.isEmpty_iff.1 hempty), if_neg hexceeds,
      if_pos (pass.lacksKernel_iff.2 hkernel)]

theorem refusal?_eq_some_iff {r : Renderer} {e : RenderError} :
    r.refusal? pass = some e ↔ Refuses r.maxDimension pass e := by
  refine ⟨fun hrefusal => ?_, Refuses.refusal?_eq⟩
  by_cases hcause : ∃ e, Refuses r.maxDimension pass e
  · obtain ⟨e', hrefuses⟩ := hcause
    cases hrefusal.symm.trans hrefuses.refusal?_eq
    exact hrefuses
  · rw [exists_refuses_iff, not_or, not_or] at hcause
    obtain ⟨hempty, hexceeds, hkernel⟩ := hcause
    have haccepts : Accepts r.maxDimension pass :=
      ⟨pass.isEmpty_eq_false_iff.2 hempty, hexceeds, mt pass.lacksKernel_iff.1 hkernel⟩
    cases hrefusal.symm.trans haccepts.refusal?_eq_none

/-! ## Stages -/

namespace Pool

variable {p : Pool}

/-- A texture is added to the pool, unless one of its key was free. -/
theorem totalCount_allocate (hkeyed : Bucket.Keyed p.free) (hkeys : (p.free.map (·.key)).Nodup)
    (ids : Identities) (key : TextureKey) :
    (p.allocate ids key).pool.totalCount =
      p.totalCount + if ∃ t ∈ p.idle, t.key = key then 0 else 1 := by
  have hcreated := created_iff hkeyed hkeys ids key
  simp only [totalCount_eq_length, textures, List.length_append]
  rcases p.allocate_textures ids key with ⟨t, free, heq, hperm, hkey⟩ | ⟨t, -, -, heq⟩
  · have hfree : ∃ t ∈ p.idle, t.key = key :=
      ⟨t, hperm.mem_iff.1 List.mem_cons_self, (hkey hkeyed).1⟩
    have hlength := hperm.length_eq
    rw [if_pos hfree, heq, ← hlength]
    simp only [idle, List.length_append, List.length_cons, List.length_nil]
    omega
  · rw [heq] at hcreated
    have hnone : ¬∃ t ∈ p.idle, t.key = key := by
      rintro ⟨u, hu, hkey⟩
      exact hcreated.1 rfl u hu hkey
    rw [if_neg hnone, heq]
    simp only [idle, List.length_append, List.length_singleton]
    omega

/-- What is handed out was not handed out before. -/
theorem Sound.allocate_inactive {ids : Identities} {outside : List Texture}
    (h : p.Sound ids outside) (key : TextureKey) :
    (p.allocate ids key).texture ∉ p.active := by
  obtain ⟨hnew, hfree⟩ := h.allocate_origin key
  intro hactive
  cases hcreated : (p.allocate ids key).created with
  | true =>
    have hmem : (p.allocate ids key).texture ∈ p.textures ++ outside :=
      List.mem_append_left _ (List.mem_append_left _ hactive)
    exact hnew hcreated _ hmem rfl
  | false => exact h.not_mem_idle hactive (hfree hcreated)

end Pool

/-! ## Sessions -/

/-- The renderer is on a device with this limit, and its pool has one bucket for each key. -/
structure Host.Fitted (host : Host) (limit : UInt32) : Prop where
  maxDimension : host.renderer.maxDimension = limit
  nodup : (host.renderer.pool.free.map (·.key)).Nodup

theorem Host.Serves.fitted {host after : Host} {calls : List (Call Binary32 Texture)}
    {log : List (Event Binary32)} (h : host.Serves calls log after) (hfitted : host.Fitted limit) :
    after.Fitted limit := by
  induction h with
  | idle => exact hfitted
  | refused _ _ ih => exact ih hfitted
  | rendered _ _ ih =>
    exact ih ⟨hfitted.maxDimension, Pool.allocate_nodup hfitted.nodup _ _⟩

namespace Session

variable {s : Session}

theorem step_fitted (h : s.host.Fitted limit) (command : Command) :
    (s.step command).1.host.Fitted limit := by
  have hacts := s.step_acts command
  generalize s.step command = done at hacts ⊢
  cases hacts with
  | stages _ _ hserves => exact hserves.fitted h
  | brings => exact ⟨h.maxDimension, h.nodup⟩
  | endFrame =>
    exact ⟨h.maxDimension, Bucket.trim_nodup (Bucket.foldl_release_nodup _ h.nodup) _⟩

theorem run_fitted (h : s.host.Fitted limit) (commands : List Command) :
    (s.run commands).host.Fitted limit :=
  run_keeps (P := fun s => s.host.Fitted limit) (fun _ hs => step_fitted hs) h commands

/-- After any run of commands a stage fails exactly if its target is empty or too large for the
    device, or if it blurs without a kernel. The first of these is reported, and the renderer and
    the log are as they were. Otherwise the target has the size that was asked for and is new to
    the active list, from which nothing goes. The pool has one texture more, or as many as before
    if one like the target was free. -/
theorem run_refuses (settings : RendererSettings) (capabilities : Capabilities)
    (maxDimension : UInt32) (commands : List Command) (subpass : Subpass Binary32 Texture)
    (log : List (Event Binary32)) :
    let host := ((create settings capabilities maxDimension).1.run commands).host
    let pool := host.renderer.pool
    let key : TextureKey := ⟨subpass.size, settings.format, .target⟩
    let (answer, after) := (Host.runSubpass subpass).runFrom ⟨host, log⟩
    let later := after.state.renderer.pool
    ((∃ e, answer = .error e) ↔
      subpass.IsEmpty ∨ subpass.Exceeds maxDimension ∨ subpass.LacksKernel) ∧
    (∀ e, answer = .error e → Refuses maxDimension subpass.toPass e ∧ after = ⟨host, log⟩) ∧
    ∀ target, answer = .ok target →
      target.size = subpass.size ∧ target ∉ pool.active ∧ later.active = pool.active ++ [target] ∧
      later.totalCount = pool.totalCount + if ∃ t ∈ pool.idle, t.key = key then 0 else 1 := by
  intro host pool key
  let start := (create settings capabilities maxDimension).1
  have hsound : (start.run commands).Sound settings :=
    foldl_sound (create_sound settings capabilities maxDimension) commands
  have hstart : start.host.Fitted maxDimension := ⟨rfl, List.nodup_nil⟩
  have hfitted : host.Fitted maxDimension := run_fitted hstart commands
  have hiff : (∃ e, Refuses maxDimension subpass.toPass e) ↔
      subpass.IsEmpty ∨ subpass.Exceeds maxDimension ∨ subpass.LacksKernel := exists_refuses_iff
  rw [← hfitted.maxDimension] at hiff ⊢
  cases hrefusal : host.renderer.refusal? subpass.toPass with
  | some e =>
    have hrefuses := refusal?_eq_some_iff.1 hrefusal
    rw [Host.runFrom_runSubpass_refused ⟨host, log⟩ subpass hrefusal]
    refine ⟨⟨fun _ => hiff.1 ⟨e, hrefuses⟩, fun _ => ⟨e, rfl⟩⟩, ?_, nofun⟩
    rintro _ ⟨⟩
    exact ⟨hrefuses, rfl⟩
  | none =>
    have haccepted : ¬∃ e, Refuses host.renderer.maxDimension subpass.toPass e := by
      rintro ⟨e, hrefuses⟩
      cases hrefusal.symm.trans (refusal?_eq_some_iff.2 hrefuses)
    rw [Host.runFrom_runSubpass_drawn ⟨host, log⟩ subpass hrefusal]
    refine ⟨⟨nofun, fun hcause => absurd (hiff.2 hcause) haccepted⟩, nofun, ?_⟩
    rintro _ ⟨⟩
    have hkey : host.renderer.targetKey subpass.size = key := by
      rw [Renderer.targetKey, hsound.settings]
    have htarget := (hsound.sound.allocate (host.renderer.targetKey subpass.size)).2.1
    refine ⟨congrArg TextureKey.size htarget, hsound.sound.allocate_inactive _,
      pool.active_allocate _ _, ?_⟩
    rw [← hkey]
    exact Pool.totalCount_allocate hsound.sound.keyed hfitted.nodup host.ids _

end Session

end Gpu

end SeparableBlur
