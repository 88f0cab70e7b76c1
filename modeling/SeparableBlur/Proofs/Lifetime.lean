-- SUMMARY: How long a free target stays in the pool: each is counted alone, and none is kept past the limit of the settings.
import SeparableBlur.Proofs.Retention

/-!
# The lifetime of free targets

The end of a frame frees targets, makes every free target one frame older and
destroys those that are past the limit, in this order. Nothing else changes the age
of a free target, and only handing it out takes it away. So its age is the number
of frames that ended since it was freed, whatever happens to other targets.
-/

namespace SeparableBlur.Gpu

/-! ## Ages -/

theorem IdleTexture.toNat_older {entry : IdleTexture} {limit : UInt32}
    (h : entry.frames.toNat ≤ limit.toNat) (hlimit : limit.toNat + 1 < UInt32.size) :
    entry.older.frames.toNat = entry.frames.toNat + 1 := by
  have hone : (1 : UInt32).toNat = 1 := rfl
  rw [older, UInt32.toNat_add, hone]
  exact Nat.mod_eq_of_lt (Nat.lt_of_le_of_lt (Nat.succ_le_succ h) hlimit)

namespace Pool

variable {p : Pool} {held : Texture → Bool} {limit : UInt32}

theorem mem_entries_reset {entry : IdleTexture} :
    entry ∈ (p.reset held).entries ↔
      (∃ t ∈ p.active, held t = false ∧ ⟨t, 0⟩ = entry) ∨ entry ∈ p.entries := by
  refine (Bucket.foldl_release_entries (p.active.filter (!held ·)) p.free).mem_iff.trans ?_
  simp [entries, and_assoc]

theorem mem_entries_trim {entry : IdleTexture} :
    entry ∈ (p.trim limit).entries ↔
      ∃ younger ∈ p.entries, younger.older = entry ∧ entry.frames ≤ limit := by
  rw [show (p.trim limit).entries = _ from Bucket.trim_entries limit p.free, List.mem_filter,
    List.mem_map, decide_eq_true_iff]
  constructor
  · rintro ⟨⟨younger, hyounger, heq⟩, hle⟩
    exact ⟨younger, hyounger, heq, hle⟩
  · rintro ⟨younger, hyounger, heq, hle⟩
    exact ⟨⟨younger, hyounger, heq⟩, hle⟩

/-- Every free texture has been free for at least one frame, and no longer than the limit. -/
def AgesWithin (p : Pool) (limit : UInt32) : Prop :=
  ∀ entry ∈ p.entries, 1 ≤ entry.frames.toNat ∧ entry.frames.toNat ≤ limit.toNat

/-- When targets have been freed at the end of a frame, all ages can still be counted. -/
theorem AgesWithin.reset (h : p.AgesWithin limit) (held : Texture → Bool) :
    ∀ entry ∈ (p.reset held).entries, entry.frames.toNat ≤ limit.toNat := by
  intro entry hentry
  rcases mem_entries_reset.1 hentry with ⟨t, -, -, rfl⟩ | hentry
  · exact Nat.zero_le _
  · exact (h entry hentry).2

theorem agesWithin_trim (h : ∀ entry ∈ p.entries, entry.frames.toNat ≤ limit.toNat)
    (hlimit : limit.toNat + 1 < UInt32.size) : (p.trim limit).AgesWithin limit := by
  intro entry hentry
  obtain ⟨younger, hyounger, rfl, hle⟩ := mem_entries_trim.1 hentry
  refine ⟨?_, UInt32.le_iff_toNat_le.1 hle⟩
  rw [IdleTexture.toNat_older (h younger hyounger) hlimit]
  exact Nat.le_add_left _ _

/-- The texture is not handed out. If it is free, then since `frames` ends of frames, and it is
    unless these are more than the limit. -/
structure Rests (p : Pool) (t : Texture) (frames : Nat) (limit : UInt32) : Prop where
  inactive : t ∉ p.active
  age : ∀ entry ∈ p.entries, entry.texture = t → entry.frames.toNat = frames
  kept : frames ≤ limit.toNat → t ∈ p.idle

variable {t : Texture} {frames : Nat}

theorem mem_idle : t ∈ p.idle ↔ ∃ entry ∈ p.entries, entry.texture = t := by
  rw [idle_eq_map_entries, List.mem_map]

/-- A target that is freed starts to rest. -/
theorem rests_reset_of_active (hactive : t ∈ p.active) (hidle : t ∉ p.idle)
    (hheld : held t = false) : (p.reset held).Rests t 0 limit where
  inactive h := by
    have := (List.mem_filter.1 h).2
    simp [hheld] at this
  age entry hentry ht := by
    rcases mem_entries_reset.1 hentry with ⟨u, -, -, rfl⟩ | hentry
    · rfl
    · exact absurd (mem_idle.2 ⟨entry, hentry, ht⟩) hidle
  kept _ := mem_idle.2 ⟨⟨t, 0⟩, mem_entries_reset.2 (.inl ⟨t, hactive, hheld, rfl⟩), rfl⟩

namespace Rests

/-- Freeing others leaves it alone. -/
theorem reset (h : p.Rests t frames limit) (held : Texture → Bool) :
    (p.reset held).Rests t frames limit where
  inactive ht := h.inactive (List.mem_filter.1 ht).1
  age entry hentry ht := by
    rcases mem_entries_reset.1 hentry with ⟨u, hu, -, rfl⟩ | hentry
    · cases ht
      exact absurd hu h.inactive
    · exact h.age entry hentry ht
  kept hframes := by
    obtain ⟨entry, hentry, ht⟩ := mem_idle.1 (h.kept hframes)
    exact mem_idle.2 ⟨entry, mem_entries_reset.2 (.inr hentry), ht⟩

/-- It grows older with the others, and goes when it is past the limit. -/
theorem trim (h : p.Rests t frames limit)
    (hages : ∀ entry ∈ p.entries, entry.frames.toNat ≤ limit.toNat)
    (hlimit : limit.toNat + 1 < UInt32.size) : (p.trim limit).Rests t (frames + 1) limit where
  inactive := h.inactive
  age entry hentry ht := by
    obtain ⟨younger, hyounger, rfl, -⟩ := mem_entries_trim.1 hentry
    rw [IdleTexture.toNat_older (hages younger hyounger) hlimit, h.age younger hyounger ht]
  kept hframes := by
    obtain ⟨entry, hentry, ht⟩ := mem_idle.1 (h.kept (Nat.le_of_succ_le hframes))
    have hage := IdleTexture.toNat_older (hages entry hentry) hlimit
    rw [h.age entry hentry ht] at hage
    refine mem_idle.2 ⟨entry.older, mem_entries_trim.2 ⟨entry, hentry, rfl, ?_⟩, ht⟩
    exact UInt32.le_iff_toNat_le.2 (hage ▸ hframes)

/-- Past the limit it is gone. -/
theorem not_mem (h : p.Rests t frames limit) (hages : p.AgesWithin limit)
    (hframes : limit.toNat < frames) : t ∉ p.textures := by
  intro ht
  rcases List.mem_append.1 ht with ht | ht
  · exact h.inactive ht
  · obtain ⟨entry, hentry, ht⟩ := mem_idle.1 ht
    have hle := (hages entry hentry).2
    rw [h.age entry hentry ht] at hle
    exact absurd hframes (Nat.not_lt.2 hle)

end Rests

end Pool

/-! ## Stages -/

theorem Host.entries_drawn (host : Host) (subpass : Subpass Binary32 Texture) :
    ∃ taken, (taken ++ (host.drawn subpass).renderer.pool.entries).Perm host.renderer.pool.entries ∧
      ∀ entry ∈ taken, entry.texture = (host.allocation subpass).texture := by
  rcases host.renderer.pool.allocate_entries host.ids (host.renderer.targetKey subpass.size) with
    ⟨entry, free, heq, hperm, -⟩ | ⟨t, -, -, heq⟩
  · have hallocation : host.allocation subpass = _ := heq
    refine ⟨[entry], ?_, ?_⟩
    · simpa only [drawn, hallocation, Pool.entries, List.singleton_append] using hperm
    · simp [hallocation]
  · have hallocation : host.allocation subpass = _ := heq
    refine ⟨[], ?_, by simp⟩
    simp only [drawn, hallocation, Pool.entries, List.nil_append, List.Perm.refl]

/-- What stages take out of the buckets is what they are given as targets. -/
theorem Host.Serves.entries {host after : Host} {calls : List (Call Binary32 Texture)}
    {log : List (Event Binary32)} (h : host.Serves calls log after) :
    ∃ taken, (taken ++ after.renderer.pool.entries).Perm host.renderer.pool.entries ∧
      ∀ entry ∈ taken, entry.texture ∈ targets calls := by
  induction h with
  | idle => exact ⟨[], .refl _, by simp⟩
  | refused _ _ ih => exact ih
  | @rendered host subpass calls log after _ _ ih =>
    obtain ⟨first, hfirst, hfirstTarget⟩ := host.entries_drawn subpass
    obtain ⟨rest, hrest, hrestTargets⟩ := ih
    refine ⟨first ++ rest, ?_, List.forall_mem_append.2 ⟨?_, ?_⟩⟩
    · rw [List.append_assoc]
      exact (hrest.append_left first).trans hfirst
    · intro entry hentry
      rw [hfirstTarget entry hentry]
      exact List.mem_cons_self
    · intro entry hentry
      exact List.mem_cons_of_mem _ (hrestTargets entry hentry)

variable {limit : UInt32} {t : Texture} {frames : Nat}

theorem Host.Serves.agesWithin {host after : Host} {calls : List (Call Binary32 Texture)}
    {log : List (Event Binary32)} (h : host.Serves calls log after)
    (hages : host.renderer.pool.AgesWithin limit) : after.renderer.pool.AgesWithin limit := by
  obtain ⟨taken, hperm, -⟩ := h.entries
  intro entry hentry
  exact hages entry (hperm.mem_iff.1 (List.mem_append_right _ hentry))

/-- A target that is not handed out goes on resting. -/
theorem Host.Serves.rests {host after : Host} {calls : List (Call Binary32 Texture)}
    {log : List (Event Binary32)} (h : host.Serves calls log after)
    (hrests : host.renderer.pool.Rests t frames limit) (ht : t ∉ targets calls) :
    after.renderer.pool.Rests t frames limit := by
  obtain ⟨taken, hperm, htaken⟩ := h.entries
  constructor
  case inactive =>
    rw [h.activates.active]
    exact List.not_mem_append hrests.inactive ht
  case age =>
    intro entry hentry
    exact hrests.age entry (hperm.mem_iff.1 (List.mem_append_right _ hentry))
  case kept =>
    intro hframes
    obtain ⟨entry, hentry, heq⟩ := Pool.mem_idle.1 (hrests.kept hframes)
    rcases List.mem_append.1 (hperm.mem_iff.2 hentry) with hentry | hentry
    · exact absurd (heq ▸ htaken entry hentry) ht
    · exact Pool.mem_idle.2 ⟨entry, hentry, heq⟩

/-! ## Sessions -/

namespace Session

variable {s : Session} {settings : RendererSettings}

theorem step_agesWithin (hsettings : s.host.renderer.settings = settings)
    (hages : s.host.renderer.pool.AgesWithin settings.maxIdleFrames)
    (hlimit : settings.maxIdleFrames.toNat + 1 < UInt32.size) (command : Command) :
    (s.step command).1.host.renderer.pool.AgesWithin settings.maxIdleFrames := by
  have hacts := s.step_acts command
  generalize s.step command = done at hacts ⊢
  cases hacts with
  | stages _ _ hserves => exact hserves.agesWithin hages
  | brings => exact hages
  | endFrame =>
    dsimp only
    rw [pool_endFrame, hsettings]
    exact Pool.agesWithin_trim (hages.reset _) hlimit

theorem foldl_agesWithin (hsound : s.Sound settings)
    (hages : s.host.renderer.pool.AgesWithin settings.maxIdleFrames)
    (hlimit : settings.maxIdleFrames.toNat + 1 < UInt32.size) (commands : List Command) :
    (s.run commands).host.renderer.pool.AgesWithin settings.maxIdleFrames := by
  induction commands generalizing s with
  | nil => exact hages
  | cons command commands ih =>
    exact ih (step_sound hsound command) (step_agesWithin hsound.settings hages hlimit command)

/-- A command that does not hand the target out leaves it resting, and older by one frame if it
    ends the frame. -/
theorem step_rests (hsettings : s.host.renderer.settings = settings)
    (hages : s.host.renderer.pool.AgesWithin settings.maxIdleFrames)
    (hlimit : settings.maxIdleFrames.toNat + 1 < UInt32.size) {command : Command}
    (hrests : s.host.renderer.pool.Rests t frames settings.maxIdleFrames)
    (ht : t ∉ targets (s.calls command)) :
    (s.step command).1.host.renderer.pool.Rests t
      (if command.endsFrame then frames + 1 else frames) settings.maxIdleFrames := by
  have hacts := s.step_acts command
  generalize s.step command = done at hacts ⊢
  cases hacts with
  | stages hends _ hserves =>
    rw [if_neg (by simp [hends])]
    exact hserves.rests hrests ht
  | brings hbrings =>
    rw [if_neg (by simp [Command.endsFrame_of_brings hbrings])]
    exact hrests
  | endFrame =>
    dsimp only
    rw [pool_endFrame, hsettings]
    exact (hrests.reset _).trim (hages.reset _) hlimit

/-- So its age is the number of frames that ended. -/
theorem foldl_rests (hsound : s.Sound settings)
    (hages : s.host.renderer.pool.AgesWithin settings.maxIdleFrames)
    (hlimit : settings.maxIdleFrames.toNat + 1 < UInt32.size)
    (hrests : s.host.renderer.pool.Rests t frames settings.maxIdleFrames)
    (commands : List Command) (ht : t ∉ s.handedOut commands) :
    (s.run commands).host.renderer.pool.Rests t (frames + commands.countP Command.endsFrame)
      settings.maxIdleFrames := by
  induction commands generalizing s frames with
  | nil => exact hrests
  | cons command commands ih =>
    obtain ⟨hfirst, hrest⟩ := not_or.1 (mt List.mem_append.2 ht)
    have hstep := step_rests hsound.settings hages hlimit hrests hfirst
    have hrun := ih (step_sound hsound command)
      (step_agesWithin hsound.settings hages hlimit command) hstep hrest
    have hcount : (if command.endsFrame then frames + 1 else frames) +
        commands.countP Command.endsFrame =
        frames + (command :: commands).countP Command.endsFrame := by
      rw [List.countP_cons]
      split <;> omega
    rwa [hcount] at hrun

/-- A target that the end of a frame frees rests from then on. -/
theorem endFrame_rests (hsound : s.Sound settings)
    (hages : s.host.renderer.pool.AgesWithin settings.maxIdleFrames)
    (hlimit : settings.maxIdleFrames.toNat + 1 < UInt32.size)
    (hactive : t ∈ s.host.renderer.pool.active)
    (hfreed : t ∉ (s.step .endFrame).1.host.renderer.pool.active) :
    (s.step .endFrame).1.host.renderer.pool.Rests t 1 settings.maxIdleFrames := by
  have hheld : s.handles.holds t = false := by
    cases hholds : s.handles.holds t with
    | false => rfl
    | true =>
      have hkept : t ∈ s.endFrame.host.renderer.pool.active := by
        rw [active_endFrame]
        exact List.mem_filter.2 ⟨hactive, hholds⟩
      exact absurd hkept hfreed
  have hidle : t ∉ s.host.renderer.pool.idle := Pool.Sound.not_mem_idle hsound.sound hactive
  change s.endFrame.host.renderer.pool.Rests t 1 settings.maxIdleFrames
  rw [pool_endFrame, hsound.settings]
  exact (Pool.rests_reset_of_active hactive hidle hheld).trim (hages.reset _) hlimit

/-- After any run every free target has been free for at least one frame and at most as many as
    the settings allow, and counting one more never overflows. A target that the end of a frame
    frees and that is not handed out again is in the pool until that many frames have ended since
    then, and no longer. -/
theorem run_lifetime (settings : RendererSettings) (capabilities : Capabilities)
    (maxDimension : UInt32) (commands : List Command)
    (hlimit : settings.maxIdleFrames.toNat + 1 < UInt32.size) :
    let s := (create settings capabilities maxDimension).1.run commands
    let pool := s.host.renderer.pool
    let ended := (s.step .endFrame).1
    let limit := settings.maxIdleFrames.toNat
    (∀ entry ∈ pool.entries, 1 ≤ entry.frames.toNat ∧ entry.frames.toNat ≤ limit) ∧
    (∀ entry ∈ (pool.reset s.handles.holds).entries,
      (entry.frames + 1).toNat = entry.frames.toNat + 1) ∧
    ∀ t ∈ pool.active, t ∉ ended.host.renderer.pool.active →
      ∀ rest, t ∉ ended.handedOut rest →
        let later := (ended.run rest).host.renderer.pool
        let age := rest.countP Command.endsFrame
        (age < limit → t ∈ later.idle) ∧ (limit ≤ age → ∀ u ∈ later.textures, u.id ≠ t.id) := by
  intro s pool ended limit
  let start := (create settings capabilities maxDimension).1
  have hcreate : start.Sound settings := create_sound settings capabilities maxDimension
  have hempty : start.host.renderer.pool.AgesWithin settings.maxIdleFrames := nofun
  have hsound : s.Sound settings := foldl_sound hcreate commands
  have hages : pool.AgesWithin settings.maxIdleFrames :=
    foldl_agesWithin hcreate hempty hlimit commands
  refine ⟨hages, fun entry hentry => ?_, fun t hactive hfreed rest hnot => ?_⟩
  · exact IdleTexture.toNat_older (hages.reset _ entry hentry) hlimit
  · intro later age
    have hended : ended.Sound settings := step_sound hsound .endFrame
    have hendedAges := step_agesWithin hsound.settings hages hlimit .endFrame
    have hrests : later.Rests t (1 + age) settings.maxIdleFrames :=
      foldl_rests hended hendedAges hlimit (endFrame_rests hsound hages hlimit hactive hfreed)
        rest hnot
    have hlaterAges := foldl_agesWithin hended hendedAges hlimit rest
    refine ⟨fun hage => hrests.kept (by omega), fun hage u hu hid => ?_⟩
    -- Of all textures that were ever handed out, none but `t` has its identity.
    have haccounts : s.Accounts (start.handedOut commands) :=
      run_accounts (create_accounts settings capabilities maxDimension) hcreate commands
    have hlater := run_accounts (endFrame_accounts haccounts) hended rest
    have ht := haccounts.pool t (List.mem_append_left _ hactive)
    have heq : u = t := hlater.same u (hlater.pool u hu) t (List.mem_append_left _ ht) hid
    exact hrests.not_mem hlaterAges (by omega) (heq ▸ hu)

/-- Settings under which free targets are kept for two frames. -/
def twoFrames : RendererSettings := { maxIdleFrames := 2 }

/-- A copy into a target of this size. -/
def copyPass (size : Size) : Pass Binary32 :=
  ⟨"Copy", size, .fill, .triangleStrip, Quad.vertices Quad.unit, .unit, none, .linearClamp⟩

/-- Pixels are copied into a target, which is let go. -/
def copiedOnce : Session :=
  (create twoFrames {} 8192).1.run
    [.importTexture ⟨⟨8, 8⟩, .rgba8Unorm, .upload⟩ (some "source"),
      .subpass "source" (copyPass ⟨8, 8⟩) (some "copy"), .drop "copy"]

/-- The target of the copy. -/
def copyTarget : Texture := ⟨3, ⟨8, 8⟩, .rgba8Unorm, .target⟩

theorem run_lifetime_of_two_frames :
    let ended := (copiedOnce.step .endFrame).1
    let rest := [.subpass "source" (copyPass ⟨4, 4⟩) (some "smaller"), .endFrame]
    copyTarget ∈ copiedOnce.host.renderer.pool.active ∧
    copyTarget ∉ ended.host.renderer.pool.active ∧
    copyTarget ∉ ended.handedOut (rest ++ [.endFrame]) ∧
    copyTarget ∈ (ended.run rest).host.renderer.pool.idle ∧
    ∀ u ∈ (ended.run (rest ++ [.endFrame])).host.renderer.pool.textures, u.id ≠ copyTarget.id := by
  intro ended rest
  have hactive : copyTarget ∈ copiedOnce.host.renderer.pool.active := by decide +kernel
  have hfreed : copyTarget ∉ ended.host.renderer.pool.active := by decide +kernel
  have hfirst : copyTarget ∉ ended.handedOut rest := by decide +kernel
  have hboth : copyTarget ∉ ended.handedOut (rest ++ [.endFrame]) := by decide +kernel
  obtain ⟨-, -, hlifetime⟩ := run_lifetime twoFrames {} 8192
    [.importTexture ⟨⟨8, 8⟩, .rgba8Unorm, .upload⟩ (some "source"),
      .subpass "source" (copyPass ⟨8, 8⟩) (some "copy"), .drop "copy"] (by decide)
  refine ⟨hactive, hfreed, hboth, ?_, ?_⟩
  · exact (hlifetime copyTarget hactive hfreed rest hfirst).1 (by decide)
  · exact (hlifetime copyTarget hactive hfreed _ hboth).2 (by decide)

end Session

end SeparableBlur.Gpu
