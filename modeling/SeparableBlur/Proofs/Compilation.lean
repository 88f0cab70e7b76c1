-- SUMMARY: A renderer compiles a pipeline when a stage first succeeds with it, and never again.
import Mathlib.Data.Finset.Card
import SeparableBlur.Proofs.Serving

/-!
# Compilation

A stage that is accepted asks for the pipeline of its program and its primitive.
The renderer compiles what it does not have and forgets none of it, so it has one
pipeline for each pair that some stage succeeded with.

The log of a run shows when that happens. `records` is what stands there about
stages and pipelines: each stage that succeeds, followed by its pipeline if no
stage before it succeeded with the same one.
-/

namespace SeparableBlur

/-- What a stage is drawn with, up to the format of its target. -/
abbrev PipelineUse := Pipeline × Primitive

def Pass.use {α : Type} (pass : Pass α) : PipelineUse := (pass.pipeline, pass.primitive)

/-- Whether the event announces a stage or a pipeline. -/
def Event.isStageOrPipeline {α : Type} : Event α → Bool
  | .rendering .. | .compiling .. => true
  | _ => false

theorem Event.isDevice_of_isStageOrPipeline {α : Type} {e : Event α}
    (h : e.isStageOrPipeline = true) : e.isDevice = true := by
  cases e with
  | rendering => rfl
  | compiling => rfl
  | _ => cases h

theorem filter_isDevice {α : Type} (log : List (Event α)) :
    (log.filter Event.isDevice).filter Event.isStageOrPipeline =
      log.filter Event.isStageOrPipeline := by
  rw [List.filter_filter]
  refine List.filter_congr fun e _ => ?_
  cases h : e.isStageOrPipeline with
  | false => rfl
  | true =>
    rw [Event.isDevice_of_isStageOrPipeline h]
    rfl

namespace Gpu

/-! ## Uses -/

/-- What the calls that succeeded were drawn with. -/
def uses : List (Call Binary32 Texture) → List PipelineUse
  | [] => []
  | ⟨subpass, .ok _⟩ :: calls => subpass.use :: uses calls
  | ⟨_, .error _⟩ :: calls => uses calls

/-- The record of a pipeline, if it is not among those in `used`. -/
def compilation (format : TextureFormat) (used : List PipelineUse) (use : PipelineUse) :
    List (Event Binary32) :=
  if use ∈ used then [] else [.compiling use.1 use.2 format]

/-- What is logged about stages and pipelines during some calls, after stages have succeeded with
    those in `used`. -/
def records (format : TextureFormat) :
    List PipelineUse → List (Call Binary32 Texture) → List (Event Binary32)
  | _, [] => []
  | used, ⟨subpass, .ok _⟩ :: calls =>
    .rendering subpass.label subpass.pipeline subpass.size ::
      (compilation format used subpass.use ++ records format (used ++ [subpass.use]) calls)
  | used, ⟨_, .error _⟩ :: calls => records format used calls

variable {format : TextureFormat} {used : List PipelineUse}

theorem uses_append (calls calls' : List (Call Binary32 Texture)) :
    uses (calls ++ calls') = uses calls ++ uses calls' := by
  induction calls with
  | nil => rfl
  | cons call calls ih =>
    obtain ⟨subpass, e | target⟩ := call
    · exact ih
    · exact congrArg _ ih

theorem records_append (calls calls' : List (Call Binary32 Texture)) :
    records format used (calls ++ calls') =
      records format used calls ++ records format (used ++ uses calls) calls' := by
  induction calls generalizing used with
  | nil => simp only [List.nil_append, records, uses, List.append_nil]
  | cons call calls ih =>
    obtain ⟨subpass, e | target⟩ := call
    · exact ih
    · have hused : used ++ subpass.use :: uses calls = used ++ [subpass.use] ++ uses calls := by simp
      simp only [List.cons_append, records, uses, ih, List.append_assoc, hused]

theorem count_compilation (use wanted : PipelineUse) (target : TextureFormat) :
    (compilation format used use).count (.compiling wanted.1 wanted.2 target) =
      if target = format ∧ wanted ∉ used ∧ wanted = use then 1 else 0 := by
  unfold compilation
  split
  · rename_i hused
    rw [if_neg (by rintro ⟨-, hnew, rfl⟩; exact hnew hused)]
    rfl
  · rename_i hnew
    rw [List.count_singleton]
    simp only [beq_iff_eq, Event.compiling.injEq]
    congr 1
    simp only [eq_iff_iff]
    constructor
    · rintro ⟨hpipeline, hprimitive, rfl⟩
      cases Prod.ext hpipeline hprimitive
      exact ⟨rfl, hnew, rfl⟩
    · rintro ⟨rfl, -, rfl⟩
      exact ⟨rfl, rfl, rfl⟩

/-- A pipeline is recorded once if a call succeeds with it for the first time, and else never. -/
theorem count_records (wanted : PipelineUse) (target : TextureFormat)
    (calls : List (Call Binary32 Texture)) :
    (records format used calls).count (.compiling wanted.1 wanted.2 target) =
      if target = format ∧ wanted ∉ used ∧ wanted ∈ uses calls then 1 else 0 := by
  induction calls generalizing used with
  | nil => simp [records, uses]
  | cons call calls ih =>
    obtain ⟨subpass, e | t⟩ := call
    · exact ih
    · rw [records, List.count_cons_of_ne (by simp), List.count_append, ih, count_compilation]
      by_cases hfirst : wanted = subpass.use
      · simp [uses, hfirst]
      · simp [uses, hfirst]

/-! ## Stages -/

/-- The host has compiled a pipeline for each of those in `used`, and no other. -/
structure Host.HasCompiled (host : Host) (format : TextureFormat) (used : List PipelineUse) :
    Prop where
  settings : host.renderer.settings.format = format
  nodup : host.renderer.pipelines.Nodup
  mem : ∀ key, key ∈ host.renderer.pipelines ↔
    key.format = format ∧ (key.pipeline, key.primitive) ∈ used

namespace Host

variable {host after : Host}

theorem HasCompiled.mem_pipelineKey (h : host.HasCompiled format used) (pass : Pass Binary32) :
    host.pipelineKey pass ∈ host.renderer.pipelines ↔ pass.use ∈ used := by
  rw [h.mem]
  exact and_iff_right h.settings

theorem HasCompiled.drawn (h : host.HasCompiled format used)
    (subpass : Subpass Binary32 Texture) :
    (host.drawn subpass).HasCompiled format (used ++ [subpass.use]) := by
  have hmem := h.mem_pipelineKey subpass.toPass
  refine ⟨h.settings, ?_, fun key => ?_⟩
  · simp only [Host.drawn]
    split
    · exact h.nodup
    · rename_i hnew
      rw [← List.concat_eq_append]
      exact h.nodup.concat hnew
  · have hkey : key = host.pipelineKey subpass.toPass ↔
        key.format = format ∧ (key.pipeline, key.primitive) = subpass.use := by
      rw [← h.settings]
      cases key
      simp [pipelineKey, Pass.use, and_comm, and_assoc]
    simp only [Host.drawn]
    split
    · rename_i hold
      have hused : (key.pipeline, key.primitive) ∈ used ++ [subpass.use] ↔
          (key.pipeline, key.primitive) ∈ used := by
        rw [List.mem_append, List.mem_singleton]
        exact or_iff_left_of_imp fun heq => heq ▸ hmem.1 hold
      rw [h.mem, hused]
    · rw [List.mem_append, List.mem_singleton, List.mem_append, List.mem_singleton, h.mem, hkey,
        and_or_left]

theorem HasCompiled.filter_report (h : host.HasCompiled format used)
    (subpass : Subpass Binary32 Texture) :
    (host.report subpass).filter Event.isStageOrPipeline =
      .rendering subpass.label subpass.pipeline subpass.size ::
        compilation format used subpass.use := by
  simp only [report, h.mem_pipelineKey, h.settings, compilation]
  split <;> split <;> rfl

/-- Stages compile what they succeed with, and log each pipeline when it is compiled. -/
theorem Serves.compiles {calls : List (Call Binary32 Texture)} {log : List (Event Binary32)}
    (hserves : host.Serves calls log after) (h : host.HasCompiled format used) :
    after.HasCompiled format (used ++ uses calls) ∧
      log.filter Event.isStageOrPipeline = records format used calls := by
  induction hserves generalizing used with
  | idle =>
    rw [uses, List.append_nil]
    exact ⟨h, rfl⟩
  | refused _ _ ih => exact ih h
  | @rendered host subpass calls log after _ _ ih =>
    obtain ⟨hafter, hlog⟩ := ih (h.drawn subpass)
    rw [List.append_assoc] at hafter
    refine ⟨hafter, ?_⟩
    rw [List.filter_append, h.filter_report, hlog, records, List.cons_append]

/-- Stages that are all refused do nothing. -/
theorem Serves.eq_of_uses_eq_nil {calls : List (Call Binary32 Texture)}
    {log : List (Event Binary32)} (hserves : host.Serves calls log after)
    (h : uses calls = []) : after = host := by
  induction hserves with
  | idle => rfl
  | refused _ _ ih => exact ih h
  | rendered => cases h

/-- There are as many pipelines as there are uses. -/
theorem HasCompiled.length (h : host.HasCompiled format used) :
    host.renderer.pipelines.length = used.toFinset.card := by
  let use (key : PipelineKey) : PipelineUse := (key.pipeline, key.primitive)
  have hnodup : (host.renderer.pipelines.map use).Nodup := by
    refine h.nodup.map_on fun key hkey other hother heq => ?_
    have hformat := ((h.mem key).1 hkey).1.trans ((h.mem other).1 hother).1.symm
    cases key
    cases other
    simp_all [use]
  have hfinset : (host.renderer.pipelines.map use).toFinset = used.toFinset := by
    ext wanted
    rw [List.mem_toFinset, List.mem_toFinset, List.mem_map]
    constructor
    · rintro ⟨key, hkey, rfl⟩
      exact ((h.mem key).1 hkey).2
    · intro hwanted
      exact ⟨⟨wanted.1, wanted.2, format⟩, (h.mem _).2 ⟨rfl, hwanted⟩, rfl⟩
  rw [← hfinset, List.toFinset_card_of_nodup hnodup, List.length_map]

end Host

/-! ## Sessions -/

namespace Session

/-- All calls that are made on the renderer while some commands are carried out. -/
def history (s : Session) : List Command → List (Call Binary32 Texture)
  | [] => []
  | command :: commands => s.calls command ++ (s.step command).1.history commands

/-- All that is logged while some commands are carried out. -/
def log (s : Session) : List Command → List (Event Binary32)
  | [] => []
  | command :: commands => (s.step command).2.2 ++ (s.step command).1.log commands

variable {s : Session}

/-- A command compiles what its calls succeed with. -/
theorem step_compiles (h : s.host.HasCompiled format used) (command : Command) :
    (s.step command).1.host.HasCompiled format (used ++ uses (s.calls command)) ∧
      (s.step command).2.2.filter Event.isStageOrPipeline =
        records format used (s.calls command) := by
  have hacts := s.step_acts command
  generalize s.step command = done at hacts ⊢
  cases hacts with
  | stages _ _ hserves =>
    rw [← filter_isDevice]
    exact hserves.compiles h
  | brings hbrings =>
    rw [calls_of_brings hbrings, uses, List.append_nil]
    exact ⟨⟨h.settings, h.nodup, h.mem⟩, rfl⟩
  | endFrame =>
    rw [show s.calls .endFrame = [] from rfl, uses, List.append_nil]
    exact ⟨⟨h.settings, h.nodup, h.mem⟩, rfl⟩

/-- A command none of whose calls succeeds leaves the pipelines as they are. -/
theorem step_pipelines {command : Command} (h : uses (s.calls command) = []) :
    (s.step command).1.host.renderer.pipelines = s.host.renderer.pipelines := by
  have hacts := s.step_acts command
  generalize s.step command = done at hacts ⊢
  cases hacts with
  | stages _ _ hserves => rw [hserves.eq_of_uses_eq_nil h]
  | brings => rfl
  | endFrame => rfl

theorem foldl_compiles (h : s.host.HasCompiled format used) (commands : List Command) :
    (s.run commands).host.HasCompiled format (used ++ uses (s.history commands)) ∧
      (s.log commands).filter Event.isStageOrPipeline =
        records format used (s.history commands) := by
  induction commands generalizing s used with
  | nil =>
    rw [history, uses, List.append_nil]
    exact ⟨h, rfl⟩
  | cons command commands ih =>
    obtain ⟨hstep, hlog⟩ := step_compiles h command
    obtain ⟨hrun, hrest⟩ := ih hstep
    rw [List.append_assoc, ← uses_append] at hrun
    refine ⟨hrun, ?_⟩
    rw [log, List.filter_append, hlog, hrest, history, records_append]

theorem create_compiles (settings : RendererSettings) (capabilities : Capabilities)
    (maxDimension : UInt32) :
    (create settings capabilities maxDimension).1.host.HasCompiled settings.format [] :=
  ⟨rfl, List.nodup_nil, by simp [create, Host.create]⟩

/-- After any run there is one pipeline for each program and primitive that a stage succeeded
    with. The log announces each stage that succeeded, and after the first with its program and
    primitive the pipeline; so each pipeline is announced once, and no other. The end of a frame
    changes no pipelines, and neither does any command none of whose stages succeeds. -/
theorem run_compiles (settings : RendererSettings) (capabilities : Capabilities)
    (maxDimension : UInt32) (commands : List Command) :
    let start := (create settings capabilities maxDimension).1
    let s := start.run commands
    let calls := start.history commands
    let log := (create settings capabilities maxDimension).2 ++ start.log commands
    s.host.renderer.pipelines.length = (uses calls).toFinset.card ∧
    log.filter Event.isStageOrPipeline = records settings.format [] calls ∧
    (∀ pipeline primitive format, log.count (.compiling pipeline primitive format) =
      if format = settings.format ∧ (pipeline, primitive) ∈ uses calls then 1 else 0) ∧
    (s.step .endFrame).1.host.renderer.pipelines = s.host.renderer.pipelines ∧
    ∀ command, uses (s.calls command) = [] →
      (s.step command).1.host.renderer.pipelines = s.host.renderer.pipelines := by
  intro start s calls log
  have hcreate := create_compiles settings capabilities maxDimension
  obtain ⟨hrun, hrest⟩ := foldl_compiles hcreate commands
  have hlog : log.filter Event.isStageOrPipeline = records settings.format [] calls := by
    rw [List.filter_append, hrest]
    rfl
  refine ⟨hrun.length, hlog, fun pipeline primitive format => ?_, rfl, fun _ => step_pipelines⟩
  have hcount : (records settings.format [] calls).count (.compiling pipeline primitive format) =
      if format = settings.format ∧ (pipeline, primitive) ∉ [] ∧ (pipeline, primitive) ∈ uses calls
      then 1 else 0 := count_records (pipeline, primitive) format calls
  rw [← hlog, List.count_filter rfl] at hcount
  simpa using hcount

end Session

end Gpu

end SeparableBlur
