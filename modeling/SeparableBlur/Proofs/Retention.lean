-- SUMMARY: What the pool keeps: at the end of a frame the active textures are those it handed out that a handle still refers to.
import Mathlib.Data.Finset.Card
import SeparableBlur.Proofs.Serving

/-!
# Retention

A stage takes its target from the pool, where it stays active as long as a handle
refers to it. The targets that a stretch of work was given are what it adds to the
active list, so an account can be kept of all that was ever handed out: whatever
of it a handle refers to is active, and at the end of a frame nothing else is.

Only handles count. Stages and snapshots are gone when their work is done, and the
bindings of a frame, which refer to what its stages read, are gone at its end. Of the
targets of one blur only the last is handed on. The others have no handle, and the
end of the frame frees them.
-/

namespace SeparableBlur.Gpu

/-! ## Sessions -/

namespace Session

/-- All targets that were handed out while some commands were carried out. -/
def handedOut (s : Session) : List Command → List Texture
  | [] => []
  | command :: commands => targets (s.calls command) ++ (s.step command).1.handedOut commands

/-- The textures that were handed out are accounted for: the pool has no others, and those that a
    handle refers to are active. -/
structure Accounts (s : Session) (out : List Texture) : Prop where
  pool : ∀ t ∈ s.host.renderer.pool.textures, t ∈ out
  drawn : ∀ t ∈ out, t.id < s.host.ids.next
  /-- Textures with the same identity are the same. -/
  same : ∀ t ∈ out, ∀ u ∈ out, t.id = u.id → t = u
  active : ∀ t ∈ out, ∀ u ∈ s.handles.textures, u.id = t.id → u ∈ s.host.renderer.pool.active

variable {s : Session} {settings : RendererSettings} {out : List Texture}

theorem Sound.active_nodup (h : s.Sound settings) : s.host.renderer.pool.active.Nodup :=
  (List.nodup_append.1 h.sound.nodup.of_map).1

/-- Different textures of a sound pool have different identities. -/
theorem Sound.eq_of_id_eq (h : s.Sound settings) {t u : Texture}
    (ht : t ∈ s.host.renderer.pool.active) (hu : u ∈ s.host.renderer.pool.active)
    (hid : t.id = u.id) : t = u :=
  List.inj_on_of_nodup_map h.sound.nodup (List.mem_append_left _ ht) (List.mem_append_left _ hu) hid

/-- Letting handles go and copying them changes no account. -/
theorem Accounts.handles (h : s.Accounts out) {handles : Handles}
    (hhandles : ∀ t ∈ handles.textures, t ∈ s.handles.textures) :
    Accounts ⟨s.host, handles⟩ out :=
  ⟨h.pool, h.drawn, h.same, fun t ht u hu => h.active t ht u (hhandles u hu)⟩

/-- Work keeps the account if it is given some targets, and only those, kept textures and new ones
    that are no targets are kept after it. -/
theorem Accounts.extend (h : s.Accounts out) (hsound : s.Sound settings) {after : Session}
    (hafter : after.Sound settings) {given : List Texture}
    (hactivates : s.host.Activates given after.host)
    (hhandles : ∀ u ∈ after.handles.textures, u ∈ s.handles.textures ∨ u ∈ given ∨
      (given = [] ∧ s.host.ids.next ≤ u.id)) : after.Accounts (out ++ given) := by
  have hgiven : ∀ t ∈ given, t ∈ after.host.renderer.pool.active := by
    intro t ht
    rw [hactivates.active]
    exact List.mem_append_right _ ht
  have hidle : ∀ t ∈ s.host.renderer.pool.idle, t ∈ out :=
    fun t ht => h.pool t (List.mem_append_right _ ht)
  -- A given texture was idle, and so had been handed out before, or it is new.
  have hmixed : ∀ t ∈ out, ∀ u ∈ given, t.id = u.id → t = u := by
    intro t ht u hu hid
    rcases hactivates.origin u hu with hfree | hnew
    · exact h.same t ht u (hidle u hfree) hid
    · exact absurd (hid ▸ h.drawn t ht) (Nat.not_lt.2 hnew)
  constructor
  case pool =>
    intro t ht
    rcases List.mem_append.1 ht with ht | ht
    · rw [hactivates.active] at ht
      rcases List.mem_append.1 ht with ht | ht
      · exact List.mem_append_left _ (h.pool t (List.mem_append_left _ ht))
      · exact List.mem_append_right _ ht
    · exact List.mem_append_left _ (hidle t (hactivates.idle t ht))
  case drawn =>
    intro t ht
    rcases List.mem_append.1 ht with ht | ht
    · exact Nat.lt_of_lt_of_le (h.drawn t ht) hactivates.ids
    · exact hafter.sound.drawn t (List.mem_append_left _ (hgiven t ht))
  case same =>
    intro t ht u hu hid
    rcases List.mem_append.1 ht with ht | ht <;> rcases List.mem_append.1 hu with hu | hu
    · exact h.same t ht u hu hid
    · exact hmixed t ht u hu hid
    · exact (hmixed u hu t ht hid.symm).symm
    · exact hafter.eq_of_id_eq (hgiven t ht) (hgiven u hu) hid
  case active =>
    intro t ht u hu hid
    have hkept (hout : t ∈ out) (hold : u ∈ s.handles.textures) :
        u ∈ after.host.renderer.pool.active := by
      rw [hactivates.active]
      exact List.mem_append_left _ (h.active t hout u hold hid)
    rcases hhandles u hu with hold | hnew | ⟨rfl, hnew⟩
    · rcases List.mem_append.1 ht with ht | ht
      · exact hkept ht hold
      -- The target had been handed out when it was idle, or it is new and has no old handle.
      · rcases hactivates.origin t ht with hfree | hlate
        · exact hkept (hidle t hfree) hold
        · exact absurd (hid ▸ hsound.sound.outside_drawn u hold) (Nat.not_lt.2 hlate)
    · exact hgiven u hnew
    · rw [List.append_nil] at ht
      exact absurd (hid ▸ h.drawn t ht) (Nat.not_lt.2 hnew)

/-! ### Commands -/

theorem holds_of_mem {h : Handles} {t : Texture} (ht : t ∈ h.textures) : h.holds t = true :=
  List.any_eq_true.2 ⟨t, ht, beq_self_eq_true t.id⟩

theorem endFrame_accounts (h : s.Accounts out) : s.endFrame.Accounts out where
  pool t ht := by
    rw [pool_endFrame] at ht
    exact h.pool t ((Pool.reset_textures _ _).mem_iff.1 ((Pool.trim_textures _ _).subset ht))
  drawn := h.drawn
  same := h.same
  active t ht u hu hid := by
    rw [active_endFrame]
    exact List.mem_filter.2 ⟨h.active t ht u hu hid, holds_of_mem hu⟩

/-- Every command keeps the account, with the targets of its calls. -/
theorem step_accounts (h : s.Accounts out) (hsound : s.Sound settings) (command : Command) :
    (s.step command).1.Accounts (out ++ targets (s.calls command)) := by
  have hafter := step_sound hsound command
  have hacts := s.step_acts command
  generalize s.step command = done at hafter hacts ⊢
  cases hacts with
  | stages _ _ hserves hhandles =>
    refine h.extend hsound hafter hserves.activates fun u hu => ?_
    rcases hhandles u hu with hold | htarget
    · exact .inl hold
    · exact .inr (.inl htarget)
  | brings hbrings hid hhandles =>
    rw [calls_of_brings hbrings, targets_nil]
    have hactivates := Host.Activates.refl s.host
    have hids := Nat.le_succ s.host.ids.next
    refine h.extend hsound hafter { hactivates with ids := hids } fun u hu => ?_
    rcases hhandles u hu with hold | rfl
    · exact .inl hold
    · exact .inr (.inr ⟨rfl, Nat.le_of_eq hid.symm⟩)
  | endFrame =>
    rw [show s.calls .endFrame = [] from rfl, targets_nil, List.append_nil]
    exact endFrame_accounts h

/-! ### Runs -/

theorem create_accounts (settings : RendererSettings) (capabilities : Capabilities)
    (maxDimension : UInt32) : (create settings capabilities maxDimension).1.Accounts [] :=
  ⟨by simp [create, Host.create, Pool.textures, Pool.idle], by simp, by simp, by simp⟩

theorem run_accounts (h : s.Accounts out) (hsound : s.Sound settings) (commands : List Command) :
    (s.run commands).Accounts (out ++ s.handedOut commands) := by
  induction commands generalizing s out with
  | nil =>
    rw [handedOut, List.append_nil]
    exact h
  | cons command commands ih =>
    have hrest := ih (step_accounts h hsound command) (step_sound hsound command)
    rw [List.append_assoc] at hrest
    exact hrest

/-- At the end of a frame, the active textures are those that were handed out and that a handle
    refers to. -/
theorem endFrame_active (h : s.Accounts out) (hsound : s.Sound settings) :
    s.endFrame.host.renderer.pool.active.Nodup ∧
      ∀ t, t ∈ s.endFrame.host.renderer.pool.active ↔ t ∈ out ∧ t ∈ s.handles.textures := by
  have hended : s.endFrame.Sound settings := step_sound hsound .endFrame
  refine ⟨hended.active_nodup, fun t => ?_⟩
  rw [active_endFrame, List.mem_filter]
  constructor
  · rintro ⟨hactive, hheld⟩
    have hout := h.pool t (List.mem_append_left _ hactive)
    obtain ⟨u, hu, hid⟩ := List.any_eq_true.1 hheld
    have hid : u.id = t.id := by simpa using hid
    have hsame := hsound.eq_of_id_eq (h.active t hout u hu hid) hactive hid
    exact ⟨hout, hsame ▸ hu⟩
  · rintro ⟨hout, hheld⟩
    exact ⟨h.active t hout t hheld rfl, holds_of_mem hheld⟩

theorem mem_targets {calls : List (Call Binary32 Texture)} {t : Texture} (ht : t ∈ targets calls) :
    ∃ call ∈ calls, call.answer = .ok t := by
  obtain ⟨call, hcall, hanswer⟩ := List.mem_filterMap.1 ht
  refine ⟨call, hcall, ?_⟩
  cases h : call.answer with
  | error e => simp [h, Except.toOption] at hanswer
  | ok target => simpa [h, Except.toOption] using hanswer

theorem perform_ok {β : Type} {work : Work β} {comes : β} {after : Logged Binary32 Host}
    (hrun : work.runFrom ⟨s.host, []⟩ = (.ok comes, after)) (name : Option String)
    (kept : β → Option Texture) (reply : β → Reply) {t : Texture} (hkept : kept comes = some t) :
    s.perform work name kept reply =
      (⟨after.state, s.handles.keep? name t⟩, reply comes, after.log) := by
  unfold perform
  rw [Action.start_eq_runFrom, hrun]
  simp only [hkept]

theorem perform_error {β : Type} {work : Work β} {e : RenderError} {after : Logged Binary32 Host}
    (hrun : work.runFrom ⟨s.host, []⟩ = (.error e, after)) (name : Option String)
    (kept : β → Option Texture) (reply : β → Reply) :
    s.perform work name kept reply = (⟨after.state, s.handles⟩, .failed e, after.log) := by
  unfold perform
  rw [Action.start_eq_runFrom, hrun]

/-- A blur that makes a call and comes to a reply comes to an output, which is kept. -/
theorem step_render {blur : Blur Binary32} {named : List NamedInput} {entity : Entity Binary32}
    {effect : Matrix4 Binary32} {hint : Option (Rect Binary32)} {name : String}
    {reply : Option (Output Binary32 Texture)}
    (hcalls : s.calls (.render blur named entity effect hint (some name)) ≠ [])
    (hreply : (s.step (.render blur named entity effect hint (some name))).2.1 = .output reply) :
    let command := .render blur named entity effect hint (some name)
    let after := (s.step command).1
    ∃ output earlier, reply = some output ∧ targets (s.calls command) = earlier ++ [output.texture] ∧
      earlier.length + 1 = (s.calls command).length ∧
      s.host.Activates (targets (s.calls command)) after.host ∧
      after.handles = s.handles.keep name output.texture := by
  intro command after
  cases hinputs : s.inputs named with
  | error e => simp [calls, hinputs] at hcalls
  | ok inputs =>
    obtain ⟨result, final, hrender, hactivates, -, hlast⟩ :=
      render_activates hinputs blur entity effect hint blur.warnings
    have hcallsEq : s.calls command =
        blur.calls Host.subpassRenderer inputs entity effect hint ⟨s.host, blur.warnings⟩ := by
      simp only [command, calls, hinputs]
    have hrun := (Action.runFrom_bind_ok (forM_emit blur.warnings ⟨s.host, []⟩) fun _ =>
      blur.render Host.subpassRenderer inputs entity effect hint).trans hrender
    have hperform : s.step command = s.perform (do
        blur.warnings.forM Action.emit
        blur.render Host.subpassRenderer inputs entity effect hint)
        (some name) (Option.map (·.texture)) .output := by
      simp only [command, step, hinputs]
    rw [hcallsEq]
    cases result with
    | error e =>
      have hstep := hperform.trans (perform_error hrun _ _ _)
      rw [hstep] at hreply
      cases hreply
    | ok comes =>
      obtain ⟨output, earlier, rfl, htargets, hlength⟩ := hlast (hcallsEq ▸ hcalls) comes rfl
      have hstep := hperform.trans (perform_ok hrun (some name) (Option.map (·.texture)) .output rfl)
      rw [hstep] at hreply
      cases hreply
      refine ⟨output, earlier, rfl, htargets, hlength, ?_⟩
      simp only [after, hstep]
      exact ⟨hactivates, rfl⟩

/-- Of the targets of a blur whose output is kept, no handle refers to any but the last. -/
theorem step_render_retains (hsound : s.Sound settings) {blur : Blur Binary32}
    {named : List NamedInput} {entity : Entity Binary32} {effect : Matrix4 Binary32}
    {hint : Option (Rect Binary32)} {name : String} {reply : Option (Output Binary32 Texture)}
    (hcalls : s.calls (.render blur named entity effect hint (some name)) ≠ [])
    (hreply : (s.step (.render blur named entity effect hint (some name))).2.1 = .output reply) :
    let command := .render blur named entity effect hint (some name)
    let after := (s.step command).1
    ∃ output earlier, reply = some output ∧
      after.host.renderer.pool.active =
        s.host.renderer.pool.active ++ earlier ++ [output.texture] ∧
      earlier.length + 1 = (s.calls command).length ∧
      after.handles.holds output.texture = true ∧
      ∀ t ∈ earlier, after.handles.holds t = false := by
  intro command after
  have hafter : after.Sound settings := step_sound hsound command
  obtain ⟨output, earlier, hoption, htargets, hlength, hactivates, hhandles⟩ :=
    step_render hcalls hreply
  have hactive : after.host.renderer.pool.active =
      s.host.renderer.pool.active ++ (earlier ++ [output.texture]) := by
    rw [hactivates.active, htargets]
  refine ⟨output, earlier, hoption, by rw [hactive, List.append_assoc], hlength, ?_, ?_⟩
  · apply holds_of_mem
    rw [hhandles]
    exact List.mem_cons_self
  · intro t ht
    have hmem : t ∈ earlier ++ [output.texture] := List.mem_append_left _ ht
    obtain ⟨call, hcall, hanswer⟩ := mem_targets (htargets ▸ hmem)
    obtain ⟨-, -, -, hother⟩ := calls_fresh hsound command call hcall t hanswer
    rw [Handles.holds_eq_false, hhandles]
    intro u hu
    rcases Handles.mem_of_keep hu with rfl | hu
    · have hnodup := hafter.active_nodup
      have hlast : output.texture ∈ after.host.renderer.pool.active := by
        rw [hactive]
        exact List.mem_append_right _ (List.mem_append_right _ List.mem_cons_self)
      have hactiveT : t ∈ after.host.renderer.pool.active := by
        rw [hactive]
        exact List.mem_append_right _ hmem
      rw [hactive] at hnodup
      have hdistinct := (List.nodup_append.1 (List.nodup_append.1 hnodup).2.1).2.2
      intro hid
      exact hdistinct t ht _ List.mem_cons_self (hafter.eq_of_id_eq hactiveT hlast hid.symm)
    · exact hother u hu

/-- Right after the end of any frame, all that the session refers to outside of the pool are the
    textures behind its handles, and the active textures are those of them that the pool handed
    out. A blur that makes calls and succeeds adds one target for each call to them. If its output
    is kept, that is the only one of them with a handle, and nothing refers to the others after the
    end of the frame. -/
theorem run_retains (settings : RendererSettings) (capabilities : Capabilities)
    (maxDimension : UInt32) (commands : List Command) :
    let start := (create settings capabilities maxDimension).1
    let s := start.run commands
    let ended := (s.step .endFrame).1
    let pool := ended.host.renderer.pool
    pool.active.Nodup ∧
    ended.references = ended.handles.textures ∧
    (∀ t, t ∈ pool.active ↔ t ∈ start.handedOut commands ∧ t ∈ ended.handles.textures) ∧
    pool.activeCount =
      ((start.handedOut commands).toFinset ∩ ended.handles.textures.toFinset).card ∧
    ∀ blur named entity effect hint name reply,
      let command := .render blur named entity effect hint (some name)
      let after := (s.step command).1
      s.calls command ≠ [] → (s.step command).2.1 = .output reply →
      ∃ output earlier, reply = some output ∧
        after.host.renderer.pool.active =
          s.host.renderer.pool.active ++ earlier ++ [output.texture] ∧
        earlier.length + 1 = (s.calls command).length ∧
        after.handles.holds output.texture = true ∧
        ∀ t ∈ earlier, after.handles.holds t = false ∧
          (after.step .endFrame).1.refersTo t = false := by
  intro start s ended pool
  have hcreate : start.Sound settings := create_sound settings capabilities maxDimension
  have hsound : s.Sound settings := foldl_sound hcreate commands
  have haccounts : s.Accounts (start.handedOut commands) :=
    run_accounts (create_accounts settings capabilities maxDimension) hcreate commands
  have hnodup : pool.active.Nodup := (endFrame_active haccounts hsound).1
  have hactive : ∀ t, t ∈ pool.active ↔
      t ∈ start.handedOut commands ∧ t ∈ ended.handles.textures :=
    (endFrame_active haccounts hsound).2
  refine ⟨hnodup, s.references_endFrame, hactive, ?_, ?_⟩
  · have hfinset : pool.active.toFinset =
        (start.handedOut commands).toFinset ∩ ended.handles.textures.toFinset := by
      ext t
      simpa using hactive t
    rw [← hfinset, List.toFinset_card_of_nodup hnodup]
    rfl
  · intro blur named entity effect hint name reply command after hcalls hreply
    obtain ⟨output, earlier, hoption, hadds, hlength, hkept, hearlier⟩ :=
      step_render_retains hsound hcalls hreply
    refine ⟨output, earlier, hoption, hadds, hlength, hkept, fun t ht => ⟨hearlier t ht, ?_⟩⟩
    change after.endFrame.refersTo t = false
    rw [refersTo_endFrame]
    exact hearlier t ht

/-- A session that has imported eight by eight pixels. -/
def importedOnce : Session :=
  (create {} {} 8192).1.run [.importTexture ⟨⟨8, 8⟩, .rgba8Unorm, .upload⟩ (some "source")]

/-- A blur of them with a sigma of ten, which is kept. -/
def blurKept : Command :=
  .render ⟨.splat (Scalar.ofRat 10), .decal⟩ [⟨"source", .identity⟩] default .identity none
    (some "result")

theorem run_retains_of_blur :
    let after := (importedOnce.step blurKept).1
    importedOnce.calls blurKept ≠ [] ∧
    ∃ output earlier, (importedOnce.step blurKept).2.1 = .output (some output) ∧
      after.host.renderer.pool.active =
        importedOnce.host.renderer.pool.active ++ earlier ++ [output.texture] ∧
      earlier.length + 1 = (importedOnce.calls blurKept).length ∧
      after.handles.holds output.texture = true ∧
      ∀ t ∈ earlier, after.handles.holds t = false ∧
        (after.step .endFrame).1.refersTo t = false := by
  intro after
  have hcalls : importedOnce.calls blurKept ≠ [] := by
    have hlength : 0 < (importedOnce.calls blurKept).length := by decide +kernel
    exact List.ne_nil_of_length_pos hlength
  have houtput : (match (importedOnce.step blurKept).2.1 with
      | .output _ => true
      | _ => false) = true := by decide +kernel
  refine ⟨hcalls, ?_⟩
  cases hreply : (importedOnce.step blurKept).2.1 with
  | output reply =>
    obtain ⟨-, -, -, -, hretains⟩ := run_retains {} {} 8192
      [.importTexture ⟨⟨8, 8⟩, .rgba8Unorm, .upload⟩ (some "source")]
    obtain ⟨output, earlier, rfl, hrest⟩ := hretains _ _ _ _ _ _ reply hcalls hreply
    exact ⟨output, earlier, rfl, hrest⟩
  | _ => simp [hreply] at houtput

end Session

end SeparableBlur.Gpu
