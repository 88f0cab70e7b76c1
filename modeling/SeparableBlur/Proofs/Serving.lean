-- SUMMARY: What a command does to a renderer: it has some stages rendered, draws an identity, or ends the frame.
import SeparableBlur.Proofs.Activation

/-!
# Serving commands

All work on a device renderer comes down to stages. `Host.Serves` says that a host
was asked for some stages one after the other, what it answered and what it logged
on the way. A blur does nothing else with its renderer, so there are only three
things that a command can do, and `Session.Acts` lists them.

What is to be known about every run then follows from one lemma about a stage and
one about the end of a frame.
-/

namespace SeparableBlur

/-- Whether the event is logged by the device renderer, and not by a blur. -/
def Event.isDevice {α : Type} : Event α → Bool
  | .rendering .. | .creating .. | .compiling .. => true
  | _ => false

/-! ## Properties that actions keep -/

namespace Action

variable {α σ β γ : Type}

/-- Whatever comes of the action, `P` holds after it if it held before. -/
def Keeps (P : Logged α σ → Prop) (a : Action α σ β) : Prop := ∀ s, P s → P (a.runFrom s).2

variable {P : Logged α σ → Prop}

theorem Keeps.pure (b : β) : Keeps P (Pure.pure b : Action α σ β) := fun _ h => h

theorem Keeps.state : Keeps P (Action.state : Action α σ σ) := fun _ h => h

theorem Keeps.bind {a : Action α σ β} {f : β → Action α σ γ} (ha : a.Keeps P)
    (hf : ∀ b, (f b).Keeps P) : (a >>= f).Keeps P := by
  intro s h
  have hfirst := ha s h
  cases hrun : a.runFrom s with
  | mk answer t =>
    rw [hrun] at hfirst
    cases answer with
    | error e =>
      rw [runFrom_bind_error hrun]
      exact hfirst
    | ok b =>
      rw [runFrom_bind_ok hrun]
      exact hf b t hfirst

end Action

/-! ## Properties that blurs keep -/

section

variable {α σ τ : Type} {P : Logged α σ → Prop} {r : SubpassRenderer α σ τ}

theorem Stage.run_keeps (hrun : ∀ subpass, (r.run subpass).Keeps P)
    (hemit : ∀ e : Event α, e.isDevice = false → (Action.emit e).Keeps P) (texture : τ)
    (stage : Stage α) : (Stage.run r texture stage).Keeps P := by
  cases stage with
  | draw pass => exact hrun ⟨pass, texture⟩
  | skip label => exact .bind (hemit _ rfl) fun _ => .pure texture

theorem Stage.foldlM_keeps (hrun : ∀ subpass, (r.run subpass).Keeps P)
    (hemit : ∀ e : Event α, e.isDevice = false → (Action.emit e).Keeps P) (texture : τ)
    (stages : List (Stage α)) : (stages.foldlM (Stage.run r) texture).Keeps P := by
  induction stages generalizing texture with
  | nil => exact .pure texture
  | cons stage stages ih =>
    rw [List.foldlM_cons]
    exact .bind (stage.run_keeps hrun hemit texture) ih

variable [Scalar α]

/-- What every stage keeps, and what is not touched by the log of the blur, a blur keeps if its
    inputs do. -/
theorem Blur.render_keeps (hrun : ∀ subpass, (r.run subpass).Keeps P)
    (hemit : ∀ e : Event α, e.isDevice = false → (Action.emit e).Keeps P) (b : Blur α)
    {inputs : List (FilterInput α σ τ)}
    (hinputs : ∀ input ∈ inputs, ∀ label entity limit, (input.snapshot label entity limit).Keeps P)
    (entity : Entity α) (effect : Matrix4 α) (hint : Option (Rect α)) :
    (b.render r inputs entity effect hint).Keeps P := by
  cases inputs with
  | nil => exact .pure none
  | cons input _ =>
    refine .bind (hinputs input List.mem_cons_self _ _ _) fun snapshot => ?_
    cases snapshot with
    | none => exact .pure none
    | some snapshot =>
      simp only [Blur.renderSnapshot]
      split
      · exact .bind (hemit _ rfl) fun _ => .pure none
      · split
        · exact .bind (hemit _ rfl) fun _ => .pure _
        · refine .bind (.bind .state fun _ => ?_) fun _ => .pure _
          refine .bind (hemit _ rfl) fun _ => ?_
          exact .bind (Stage.foldlM_keeps hrun hemit _ _) fun _ => .pure _

end

namespace Gpu

/-! ## Stages -/

namespace Host

theorem filter_report (host : Host) (subpass : Subpass Binary32 Texture) :
    (host.report subpass).filter Event.isDevice = host.report subpass := by
  unfold report
  split <;> split <;> rfl

/-- `before.Serves calls log after`: the host was asked for the stages of the calls one after the
    other and gave the answers of the calls. On the way it logged `log`. -/
inductive Serves : Host → List (Call Binary32 Texture) → List (Event Binary32) → Host → Prop where
  | idle {host} : Serves host [] [] host
  | refused {host subpass e calls log after} :
      host.renderer.refusal? subpass.toPass = some e →
      Serves host calls log after →
      Serves host (⟨subpass, .error e⟩ :: calls) log after
  | rendered {host subpass calls log after} :
      host.renderer.refusal? subpass.toPass = none →
      Serves (host.drawn subpass) calls log after →
      Serves host (⟨subpass, .ok (host.allocation subpass).texture⟩ :: calls)
        (host.report subpass ++ log) after

theorem Serves.append {host middle after : Host} {calls calls' : List (Call Binary32 Texture)}
    {log log' : List (Event Binary32)} (h : host.Serves calls log middle)
    (h' : middle.Serves calls' log' after) :
    host.Serves (calls ++ calls') (log ++ log') after := by
  induction h with
  | idle => exact h'
  | refused hrefusal _ ih => exact .refused hrefusal (ih h')
  | rendered hrefusal _ ih =>
    rw [List.append_assoc]
    exact .rendered hrefusal (ih h')

/-- The host is given the targets of the calls. -/
theorem Serves.activates {host after : Host} {calls : List (Call Binary32 Texture)}
    {log : List (Event Binary32)} (h : host.Serves calls log after) :
    host.Activates (targets calls) after := by
  induction h with
  | idle => exact .refl _
  | refused _ _ ih => exact ih
  | @rendered host subpass _ _ _ _ _ ih =>
    have hfirst := (draws_drawn subpass host).activates
    exact hfirst.trans ih

/-- One stage, whatever its answer. -/
theorem serves_runSubpass {s after : Logged Binary32 Host} {subpass : Subpass Binary32 Texture}
    {answer : Except RenderError Texture} (hrun : (runSubpass subpass).runFrom s = (answer, after)) :
    ∃ log, s.state.Serves [⟨subpass, answer⟩] log after.state ∧ after.log = s.log ++ log ∧
      log.filter Event.isDevice = log := by
  cases hrefusal : s.state.renderer.refusal? subpass.toPass with
  | some e =>
    cases hrun.symm.trans (runFrom_runSubpass_refused s subpass hrefusal)
    exact ⟨[], .refused hrefusal .idle, by simp, rfl⟩
  | none =>
    cases hrun.symm.trans (runFrom_runSubpass_drawn s subpass hrefusal)
    refine ⟨s.state.report subpass ++ [], .rendered hrefusal .idle, by simp, ?_⟩
    rw [List.append_nil, filter_report]

/-- From `start` the watched host served the calls that are recorded, and what it logged stands
    after `earlier` in the log. -/
def HasServed (start : Host) (earlier : List (Event Binary32))
    (s : Logged Binary32 (Watched Binary32 Host Texture)) : Prop :=
  ∃ log, start.Serves s.state.calls log s.state.state ∧
    s.log.filter Event.isDevice = earlier ++ log

variable {start : Host} {earlier : List (Event Binary32)}

theorem watched_run_keeps (subpass : Subpass Binary32 Texture) :
    (Host.subpassRenderer.watched.run subpass).Keeps (HasServed start earlier) := by
  rintro s ⟨log, hserves, hlog⟩
  cases hrun : (runSubpass subpass).runFrom s.unwatched with
  | mk answer after =>
    obtain ⟨more, hstage, hafter, hdevice⟩ := serves_runSubpass hrun
    have hwatched : (Host.subpassRenderer.watched.run subpass).runFrom s = _ :=
      SubpassRenderer.runFrom_watched hrun
    rw [hwatched]
    refine ⟨log ++ more, hserves.append hstage, ?_⟩
    have hunwatched : s.unwatched.log = s.log := rfl
    simp only [hafter, hunwatched, List.filter_append, hlog, hdevice, List.append_assoc]

theorem emit_keeps (e : Event Binary32) (he : e.isDevice = false) :
    (Action.emit e).Keeps (HasServed start earlier) := by
  rintro s ⟨log, hserves, hlog⟩
  refine ⟨log, hserves, ?_⟩
  simp [hlog, he]

end Host

/-! ## Blurs of kept textures -/

namespace Session

variable {s : Session}

theorem inputs_ofTexture {named : List NamedInput}
    {inputs : List (FilterInput Binary32 Host Texture)} (h : s.inputs named = .ok inputs) :
    ∀ input ∈ inputs, ∃ t size placement, input = .ofTexture t size placement := by
  induction named generalizing inputs with
  | nil =>
    cases h
    simp
  | cons n named ih =>
    obtain ⟨t, rest, -, hrest, rfl⟩ := inputs_cons_ok h
    exact List.forall_mem_cons.2 ⟨⟨t, t.size, n.placement, rfl⟩, ih hrest⟩

/-- The blur of some kept textures has its calls served, and nothing else. -/
theorem render_serves {named : List NamedInput}
    {inputs : List (FilterInput Binary32 Host Texture)} (hinputs : s.inputs named = .ok inputs)
    (b : Blur Binary32) (entity : Entity Binary32) (effect : Matrix4 Binary32)
    (hint : Option (Rect Binary32)) (earlier : List (Event Binary32)) :
    let render := b.render Host.subpassRenderer inputs entity effect hint
    let calls := b.calls Host.subpassRenderer inputs entity effect hint ⟨s.host, earlier⟩
    let after := (render.runFrom ⟨s.host, earlier⟩).2
    ∃ log, s.host.Serves calls log after.state ∧
      after.log.filter Event.isDevice = earlier.filter Event.isDevice ++ log := by
  intro render calls after
  let before : Logged Binary32 (Watched Binary32 Host Texture) := ⟨⟨s.host, []⟩, earlier⟩
  have hunseen : ∀ input ∈ inputs.map (FilterInput.unseen (τ := Texture)),
      ∀ label entity limit, (input.snapshot label entity limit).Keeps
        (Host.HasServed s.host (earlier.filter Event.isDevice)) := by
    intro input hinput label entity limit
    obtain ⟨_, hmem, rfl⟩ := List.mem_map.1 hinput
    obtain ⟨t, size, placement, rfl⟩ := inputs_ofTexture hinputs _ hmem
    exact fun _ h => h
  have hstart : Host.HasServed s.host (earlier.filter Event.isDevice) before :=
    ⟨[], .idle, (List.append_nil _).symm⟩
  have hafter := congrArg Prod.snd
    (b.render_follows Host.subpassRenderer inputs entity effect hint before)
  obtain ⟨log, hserves, hlog⟩ :=
    b.render_keeps Host.watched_run_keeps Host.emit_keeps hunseen entity effect hint before hstart
  rw [show after = _ from hafter.symm]
  exact ⟨log, hserves, hlog⟩

end Session

/-! ## Commands -/

/-- Whether the command ends the frame. -/
def Command.endsFrame : Command → Bool
  | .endFrame => true
  | _ => false

/-- Whether the command brings a texture in from outside. -/
def Command.brings : Command → Bool
  | .upload .. | .importTexture .. => true
  | _ => false

theorem Command.endsFrame_of_brings {command : Command} (h : command.brings = true) :
    command.endsFrame = false := by
  cases command with
  | endFrame => cases h
  | _ => rfl

namespace Session

/-- The three things that a command can do. -/
inductive Acts (s : Session) : Command → Session × Reply × List (Event Binary32) → Prop where
  /-- It has stages rendered, and at most keeps a target. -/
  | stages {command after reply log} :
      command.endsFrame = false →
      (command.brings = false ∨ ∃ e, reply = .failed e) →
      s.host.Serves (s.calls command) (log.filter Event.isDevice) after.host →
      (∀ t ∈ after.handles.textures, t ∈ s.handles.textures ∨ t ∈ targets (s.calls command)) →
      Acts s command (after, reply, log)
  /-- It brings in a texture, for which an identity is drawn. -/
  | brings {command t handles} :
      command.brings = true →
      t.id = s.host.ids.next →
      (∀ u ∈ handles.textures, u ∈ s.handles.textures ∨ u = t) →
      Acts s command
        (⟨⟨⟨s.host.ids.next + 1⟩, s.host.renderer⟩, handles⟩, .texture t, [])
  /-- It ends the frame. -/
  | endFrame : Acts s .endFrame (s.endFrame, .done, [])

variable {s : Session} {command : Command}

theorem calls_of_brings (h : command.brings = true) : s.calls command = [] := by
  cases command with
  | upload => rfl
  | importTexture => rfl
  | _ => cases h

/-- A command that leaves the renderer alone and keeps nothing new. -/
theorem Acts.unchanged {handles : Handles} {reply : Reply} {log : List (Event Binary32)}
    (hends : command.endsFrame = false) (hbrings : command.brings = false ∨ ∃ e, reply = .failed e)
    (hcalls : s.calls command = []) (hlog : log.filter Event.isDevice = [])
    (hhandles : ∀ t ∈ handles.textures, t ∈ s.handles.textures) :
    s.Acts command (⟨s.host, handles⟩, reply, log) := by
  refine .stages hends hbrings ?_ fun t ht => .inl (hhandles t ht)
  rw [hcalls, hlog]
  exact .idle

theorem filter_warnings (b : Blur Binary32) : b.warnings.filter Event.isDevice = [] := by
  unfold Blur.warnings
  split <;> rfl

/-- Work that has the calls of the command served. -/
theorem perform_acts {β : Type} {work : Work β} {answer : Except RenderError β}
    {after : Logged Binary32 Host} (name : Option String) (kept : β → Option Texture)
    (reply : β → Reply) (hends : command.endsFrame = false) (hbrings : command.brings = false)
    (hrun : work.runFrom ⟨s.host, []⟩ = (answer, after))
    (hserves : s.host.Serves (s.calls command) (after.log.filter Event.isDevice) after.state)
    (hkept : ∀ b t, answer = .ok b → kept b = some t →
      t ∈ s.handles.textures ∨ t ∈ targets (s.calls command)) :
    s.Acts command (s.perform work name kept reply) := by
  unfold perform
  rw [Action.start_eq_runFrom, hrun]
  cases answer with
  | error e => exact .stages hends (.inl hbrings) hserves fun t ht => .inl ht
  | ok b =>
    refine .stages hends (.inl hbrings) hserves fun t ht => ?_
    cases hkeep : kept b with
    | none =>
      simp only [hkeep] at ht
      exact .inl ht
    | some u =>
      simp only [hkeep] at ht
      rcases Handles.mem_of_keep? ht with rfl | ht
      · exact hkept b t rfl hkeep
      · exact .inl ht

theorem importTexture_acts (key : TextureKey) (name : Option String)
    (h : command.brings = true) :
    s.Acts command (s.perform (Host.importTexture key) name some .texture) := by
  cases name with
  | none =>
    exact .brings (t := (Texture.create key s.host.ids).1) h rfl fun u hu => .inl hu
  | some name =>
    refine .brings (t := (Texture.create key s.host.ids).1) h rfl fun u hu => ?_
    exact (Handles.mem_of_keep hu).symm

theorem upload_acts (size : Size) (pixels : ByteArray) (name : Option String) :
    s.Acts (.upload size pixels name) (s.perform (Host.upload size pixels) name some .texture) := by
  unfold Host.upload
  split
  · exact .unchanged rfl (.inr ⟨_, rfl⟩) rfl rfl fun _ ht => ht
  · split
    · exact .unchanged rfl (.inr ⟨_, rfl⟩) rfl rfl fun _ ht => ht
    · exact importTexture_acts _ name rfl

theorem subpass_acts {input : String} {texture : Texture}
    (hfind : s.handles.find? input = some texture) (pass : Pass Binary32) (name : Option String) :
    s.Acts (.subpass input pass name)
      (s.perform (Host.runSubpass ⟨pass, texture⟩) name some .texture) := by
  cases hrun : (Host.runSubpass ⟨pass, texture⟩).runFrom ⟨s.host, []⟩ with
  | mk answer after =>
    obtain ⟨log, hserves, hlog, hdevice⟩ := Host.serves_runSubpass hrun
    have hcalls : s.calls (.subpass input pass name) = [⟨⟨pass, texture⟩, answer⟩] := by
      simp only [calls, hfind, Action.start_eq_runFrom, hrun]
    have hfilter : after.log.filter Event.isDevice = log := by rw [hlog, List.nil_append, hdevice]
    refine perform_acts name some .texture rfl rfl hrun (hcalls ▸ hfilter ▸ hserves) ?_
    rintro b _ rfl ⟨⟩
    rw [hcalls]
    exact .inr List.mem_cons_self

theorem render_acts {named : List NamedInput}
    {inputs : List (FilterInput Binary32 Host Texture)} (hinputs : s.inputs named = .ok inputs)
    (blur : Blur Binary32) (entity : Entity Binary32) (effect : Matrix4 Binary32)
    (hint : Option (Rect Binary32)) (name : Option String) :
    let work : Work (Option (Output Binary32 Texture)) := do
      blur.warnings.forM Action.emit
      blur.render Host.subpassRenderer inputs entity effect hint
    s.Acts (.render blur named entity effect hint name)
      (s.perform work name (Option.map (·.texture)) .output) := by
  have hcalls : s.calls (.render blur named entity effect hint name) =
      blur.calls Host.subpassRenderer inputs entity effect hint ⟨s.host, blur.warnings⟩ := by
    simp only [calls, hinputs]
  obtain ⟨result, after, hrender, -, hkept, -⟩ :=
    render_activates hinputs blur entity effect hint blur.warnings
  obtain ⟨log, hserves, hlog⟩ := render_serves hinputs blur entity effect hint blur.warnings
  rw [hrender] at hserves hlog
  rw [filter_warnings, List.nil_append] at hlog
  have hrun := (Action.runFrom_bind_ok (forM_emit blur.warnings ⟨s.host, []⟩) fun _ =>
    blur.render Host.subpassRenderer inputs entity effect hint).trans hrender
  refine perform_acts name _ .output rfl rfl hrun (hcalls ▸ hlog ▸ hserves) ?_
  rintro reply t rfl ht
  obtain ⟨output, rfl, rfl⟩ := Option.map_eq_some_iff.1 ht
  rw [hcalls]
  exact hkept output rfl

/-- Every command does one of the three. -/
theorem step_acts (s : Session) (command : Command) : s.Acts command (s.step command) := by
  cases command with
  | upload size pixels name => exact upload_acts size pixels name
  | importTexture key name => exact importTexture_acts key name rfl
  | subpass input pass name =>
    simp only [step]
    split
    · rename_i texture hfind
      exact subpass_acts hfind pass name
    · rename_i hfind
      refine .unchanged rfl (.inl rfl) ?_ rfl fun _ ht => ht
      simp only [calls, hfind]
  | render blur named entity effect hint name =>
    simp only [step]
    split
    · rename_i inputs hinputs
      exact render_acts hinputs blur entity effect hint name
    · rename_i hinputs
      refine .unchanged rfl (.inl rfl) ?_ rfl fun _ ht => ht
      simp only [calls, hinputs]
  | coverage blur named entity effect =>
    simp only [step]
    split
    · exact .unchanged rfl (.inl rfl) rfl (filter_warnings blur) fun _ ht => ht
    · exact .unchanged rfl (.inl rfl) rfl rfl fun _ ht => ht
  | copy source name =>
    simp only [step]
    split
    · rename_i texture hfind
      refine .unchanged rfl (.inl rfl) rfl rfl fun t ht => ?_
      rcases Handles.mem_of_keep ht with rfl | ht
      · exact Handles.find?_mem hfind
      · exact ht
    · exact .unchanged rfl (.inl rfl) rfl rfl fun _ ht => ht
  | drop name =>
    exact .unchanged rfl (.inl rfl) rfl rfl fun t ht => Handles.mem_of_drop ht
  | read name =>
    simp only [step]
    split
    · split <;> exact .unchanged rfl (.inl rfl) rfl rfl fun _ ht => ht
    · exact .unchanged rfl (.inl rfl) rfl rfl fun _ ht => ht
  | endFrame => exact .endFrame

end Session

end Gpu

end SeparableBlur
