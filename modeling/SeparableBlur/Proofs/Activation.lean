-- SUMMARY: The targets that stages are given: each becomes active, and was free before or is new.
import SeparableBlur.Proofs.Session

/-!
# Activation

A stage that succeeds takes its target from the pool. What a stretch of work adds
to the active list are the targets of its calls, in order, and each of them was
free before or is new.

A chain of stages hands on the last of its targets, so a blur that makes calls
comes to that one.
-/

namespace SeparableBlur.Gpu

/-! ## Targets -/

/-- The targets of the calls that succeeded. -/
def targets (calls : List (Call Binary32 Texture)) : List Texture :=
  calls.filterMap (·.answer.toOption)

@[simp] theorem targets_nil : targets [] = [] := rfl

@[simp] theorem targets_cons_ok (subpass : Subpass Binary32 Texture) (target : Texture)
    (calls : List (Call Binary32 Texture)) :
    targets (⟨subpass, .ok target⟩ :: calls) = target :: targets calls := rfl

/-- What being given some targets does to a host: they are on the active list, and each was free
    before or is new. -/
structure Host.Activates (before : Host) (given : List Texture) (after : Host) : Prop where
  active : after.renderer.pool.active = before.renderer.pool.active ++ given
  idle : ∀ t ∈ after.renderer.pool.idle, t ∈ before.renderer.pool.idle
  ids : before.ids.next ≤ after.ids.next
  origin : ∀ t ∈ given, t ∈ before.renderer.pool.idle ∨ before.ids.next ≤ t.id

namespace Host.Activates

variable {before middle after : Host} {given given' : List Texture}

theorem refl (host : Host) : host.Activates [] host :=
  ⟨by simp, fun _ ht => ht, Nat.le_refl _, by simp⟩

theorem trans (h : before.Activates given middle) (h' : middle.Activates given' after) :
    before.Activates (given ++ given') after where
  active := by rw [h'.active, h.active, List.append_assoc]
  idle t ht := h.idle t (h'.idle t ht)
  ids := Nat.le_trans h.ids h'.ids
  origin := by
    intro t ht
    rcases List.mem_append.1 ht with ht | ht
    · exact h.origin t ht
    · rcases h'.origin t ht with hidle | hnew
      · exact .inl (h.idle t hidle)
      · exact .inr (Nat.le_trans h.ids hnew)

end Host.Activates

/-! ## Stages -/

theorem Host.Draws.activates {host after : Host} {size : Size} {target : Texture}
    (h : host.Draws size target after) : host.Activates [target] after := by
  obtain ⟨htarget, hpool, hids, -, -, -⟩ := h
  rcases host.renderer.pool.allocate_textures host.ids (host.renderer.targetKey size) with
    ⟨t, free, heq, hperm, -⟩ | ⟨t, hid, -, heq⟩
  · rw [heq] at htarget hpool hids
    subst htarget
    have hmem : ∀ u ∈ target :: free.flatMap Bucket.textures, u ∈ host.renderer.pool.idle :=
      fun u hu => hperm.mem_iff.1 hu
    refine ⟨by rw [hpool], fun u hu => ?_, hids, ?_⟩
    · rw [hpool] at hu
      exact hmem u (List.mem_cons_of_mem _ hu)
    · simpa using .inl (hmem target List.mem_cons_self)
  · rw [heq] at htarget hpool hids
    subst htarget
    refine ⟨by rw [hpool], fun u hu => ?_, Nat.le_of_succ_le hids, ?_⟩
    · rw [hpool] at hu
      exact hu
    · simpa using .inr (Nat.le_of_eq hid.symm)

theorem runSubpass_activates {s after : Logged Binary32 Host} {subpass : Subpass Binary32 Texture}
    {answer : Except RenderError Texture}
    (hrun : (Host.runSubpass subpass).runFrom s = (answer, after)) :
    s.state.Activates (targets [⟨subpass, answer⟩]) after.state := by
  cases hrefusal : s.state.renderer.refusal? subpass.toPass with
  | some e =>
    cases hrun.symm.trans (Host.runFrom_runSubpass_refused s subpass hrefusal)
    exact .refl _
  | none =>
    obtain ⟨target, _, hok, hdraws⟩ := Host.runFrom_runSubpass_accepted s subpass hrefusal
    cases hrun.symm.trans hok
    exact hdraws.activates

/-- A chain of stages is given the targets of its calls. -/
theorem chained_activates {s final : Host} {t : Texture} {passes : List (Pass Binary32)}
    {calls : List (Call Binary32 Texture)} {outcome : Except RenderError Texture}
    (h : Chained Host.subpassRenderer s t passes calls outcome final) :
    s.Activates (targets calls) final := by
  induction h with
  | done => exact .refl _
  | failed hrun => exact runSubpass_activates hrun
  | rendered hrun _ ih => exact (runSubpass_activates hrun).trans ih

/-- A chain that comes to a texture has a target for each call, and ends with the last of them. -/
theorem chained_last {s final : Host} {t texture : Texture} {passes : List (Pass Binary32)}
    {calls : List (Call Binary32 Texture)}
    (h : Chained Host.subpassRenderer s t passes calls (.ok texture) final) :
    (targets calls).length = calls.length ∧ (t :: targets calls).getLast? = some texture := by
  generalize houtcome : Except.ok texture = outcome at h
  induction h with
  | done =>
    cases houtcome
    simp
  | failed => cases houtcome
  | rendered _ _ ih =>
    obtain ⟨hlength, hlast⟩ := ih houtcome
    simp only [targets_cons_ok, List.length_cons, hlength, List.getLast?_cons_cons, hlast, and_self]

/-- So if there are passes, all its targets but the last are intermediate. -/
theorem chained_targets {s final : Host} {t texture : Texture} {pass : Pass Binary32}
    {passes : List (Pass Binary32)} {calls : List (Call Binary32 Texture)}
    (h : Chained Host.subpassRenderer s t (pass :: passes) calls (.ok texture) final) :
    ∃ earlier, targets calls = earlier ++ [texture] ∧ earlier.length + 1 = calls.length := by
  cases h with
  | rendered hrun hrest =>
    obtain ⟨hlength, hlast⟩ := chained_last hrest
    obtain ⟨earlier, hearlier⟩ := List.getLast?_eq_some_iff.1 hlast
    refine ⟨earlier, hearlier, ?_⟩
    have hcount := congrArg List.length hearlier
    rw [List.length_cons, List.length_append, List.length_singleton, hlength] at hcount
    rw [List.length_cons, hcount]

/-! ## Blurs -/

/-- What the blur of some kept textures is given, and what it hands on: a kept texture or, if it
    makes a call, the last of its targets. -/
theorem render_activates {s : Session} {named : List NamedInput}
    {inputs : List (FilterInput Binary32 Host Texture)} (hinputs : s.inputs named = .ok inputs)
    (b : Blur Binary32) (entity : Entity Binary32) (effect : Matrix4 Binary32)
    (hint : Option (Rect Binary32)) (log : List (Event Binary32)) :
    let calls := b.calls Host.subpassRenderer inputs entity effect hint ⟨s.host, log⟩
    ∃ result after,
      (b.render Host.subpassRenderer inputs entity effect hint).runFrom ⟨s.host, log⟩ =
        (result, after) ∧
      s.host.Activates (targets calls) after.state ∧
      (∀ output, result = .ok (some output) →
        output.texture ∈ s.handles.textures ∨ output.texture ∈ targets calls) ∧
      (calls ≠ [] → ∀ reply, result = .ok reply → ∃ output earlier, reply = some output ∧
        targets calls = earlier ++ [output.texture] ∧ earlier.length + 1 = calls.length) := by
  obtain ⟨calls, result, final, log', hcalls, hrun, h⟩ :=
    b.renders Host.subpassRenderer entity inputs effect hint ⟨s.host, log⟩
  dsimp only
  rw [hcalls]
  refine ⟨result, ⟨final, log'⟩, hrun, ?_⟩
  cases named with
  | nil =>
    cases hinputs
    cases h with
    | noInput => exact ⟨.refl _, by simp, by simp⟩
  | cons n named =>
    obtain ⟨t, rest, hfind, -, rfl⟩ := Session.inputs_cons_ok hinputs
    cases h with
    | failed hsnapshot => cases hsnapshot
    | nothing hsnapshot => cases hsnapshot
    | empty hsnapshot _ =>
      cases hsnapshot
      exact ⟨.refl _, by simp, by simp⟩
    | weak hsnapshot _ _ =>
      cases hsnapshot
      refine ⟨.refl _, ?_, by simp⟩
      rintro _ ⟨⟩
      exact .inl (Handles.find?_mem hfind)
    | blurred hsnapshot _ _ hissues =>
      cases hsnapshot
      obtain ⟨down, passes, outcome, -, -, hchain, rfl⟩ := hissues.chain
      cases outcome with
      | error e =>
        refine ⟨chained_activates hchain, ?_, ?_⟩
        · rintro _ ⟨⟩
        · rintro - _ ⟨⟩
      | ok texture =>
        obtain ⟨earlier, hearlier, hlength⟩ := chained_targets hchain
        refine ⟨chained_activates hchain, ?_, ?_⟩
        · rintro _ ⟨⟩
          rw [hearlier]
          exact .inr (List.mem_append_right _ List.mem_cons_self)
        · rintro - _ ⟨⟩
          exact ⟨_, earlier, rfl, hearlier, hlength⟩

end SeparableBlur.Gpu
