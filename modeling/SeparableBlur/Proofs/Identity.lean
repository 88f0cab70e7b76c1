-- SUMMARY: No identity is given out twice, so every stage is drawn with a binding of its own input and its own sampler.
import SeparableBlur.Gpu.Fleet
import SeparableBlur.Proofs.Serving

/-!
# Identities

Bindings are found in a cache by the identities of a texture and a sampler, and
nothing else about these is compared. What is found is right for two reasons: every
cached binding stands under the identities of what it binds, and every identity was
drawn for one object only, whichever renderer drew it.

So an account is kept of all objects that identities were drawn for. The textures
and samplers of all renderers are in it, and so are the textures that are kept
outside, long after the pools that made them have let them go.
-/

namespace SeparableBlur.Gpu

/-! ## Objects with identities -/

/-- What an identity is drawn for. -/
inductive Tracked where
  | texture (texture : Texture)
  | sampler (sampler : SamplerObject)
  /-- A layout, or an object outside the renderers. -/
  | other (id : Nat)
deriving DecidableEq

def Tracked.id : Tracked → Nat
  | .texture t => t.id
  | .sampler s => s.id
  | .other id => id

/-- The objects got the identities that the counter ran through, in this order. -/
structure Numbers (ids : Identities) (made : List Tracked) : Prop where
  order : made.map Tracked.id = List.range' 1 made.length
  next : ids.next = made.length + 1

namespace Numbers

variable {ids : Identities} {made : List Tracked}

theorem nodup (h : Numbers ids made) : (made.map Tracked.id).Nodup := by
  rw [h.order]
  exact List.nodup_range'

theorem eq_of_id_eq (h : Numbers ids made) {a b : Tracked} (ha : a ∈ made) (hb : b ∈ made)
    (hid : a.id = b.id) : a = b :=
  List.inj_on_of_nodup_map h.nodup ha hb hid

/-- The next object gets the next identity. -/
theorem draw (h : Numbers ids made) {a : Tracked} (ha : a.id = ids.next) :
    Numbers ⟨ids.next + 1⟩ (made ++ [a]) where
  order := by
    rw [List.map_append, h.order, List.map_singleton, ha, h.next, List.length_append,
      List.length_singleton, List.range'_1_concat, Nat.add_comm]
  next := by
    rw [List.length_append, List.length_singleton]
    exact congrArg (· + 1) h.next

end Numbers

/-! ## Samplers and bindings -/

namespace Bindings

/-- The samplers that have to be made to get one with this description. -/
def newSamplers (b : Bindings) (ids : Identities) (descriptor : Sampler) : List SamplerObject :=
  if b.samplers.any (·.descriptor = descriptor) then [] else [⟨ids.next, descriptor⟩]

/-- Every binding is found under the identities of what it binds, and there is one sampler for
    each description. All that is bound is accounted for. -/
structure Faithful (b : Bindings) (made : List Tracked) : Prop where
  samplers : ∀ s ∈ b.samplers, .sampler s ∈ made
  descriptors : (b.samplers.map (·.descriptor)).Nodup
  keys : ∀ entry ∈ b.cached, entry.1 = (entry.2.texture.id, entry.2.sampler.id)
  cached : ∀ entry ∈ b.cached, .texture entry.2.texture ∈ made ∧ entry.2.sampler ∈ b.samplers

variable {b : Bindings} {ids : Identities} {made : List Tracked}

theorem Faithful.append (h : b.Faithful made) (more : List Tracked) :
    b.Faithful (made ++ more) where
  samplers s hs := List.mem_append_left _ (h.samplers s hs)
  descriptors := h.descriptors
  keys := h.keys
  cached entry hentry :=
    ⟨List.mem_append_left _ (h.cached entry hentry).1, (h.cached entry hentry).2⟩

theorem Faithful.endFrame (h : b.Faithful made) : b.endFrame.Faithful made where
  samplers := h.samplers
  descriptors := h.descriptors
  keys _ hentry := absurd hentry List.not_mem_nil
  cached _ hentry := absurd hentry List.not_mem_nil

/-- A sampler is found, or it is made and kept. -/
theorem sampler_cases (b : Bindings) (ids : Identities) (descriptor : Sampler) :
    (∃ s ∈ b.samplers, s.descriptor = descriptor ∧ b.sampler ids descriptor = (s, b, ids) ∧
      b.newSamplers ids descriptor = []) ∨
    ((∀ s ∈ b.samplers, s.descriptor ≠ descriptor) ∧
      b.sampler ids descriptor = (⟨ids.next, descriptor⟩,
        { b with samplers := b.samplers ++ [⟨ids.next, descriptor⟩] }, ⟨ids.next + 1⟩) ∧
      b.newSamplers ids descriptor = [⟨ids.next, descriptor⟩]) := by
  cases hfind : b.samplers.find? (·.descriptor = descriptor) with
  | some s =>
    have hs : s.descriptor = descriptor := by simpa using List.find?_some hfind
    have hmem := List.mem_of_find?_eq_some hfind
    refine .inl ⟨s, hmem, hs, ?_, if_pos ?_⟩
    · simp only [sampler, hfind]
    · exact List.any_eq_true.2 ⟨s, hmem, by simpa using hs⟩
  | none =>
    have hnone : ∀ s ∈ b.samplers, s.descriptor ≠ descriptor := by simpa using hfind
    refine .inr ⟨hnone, ?_, if_neg ?_⟩
    · simp only [sampler, hfind]
      rfl
    · simpa using hnone

theorem Faithful.sampler (h : b.Faithful made) (hids : Numbers ids made) (descriptor : Sampler) :
    let found := b.sampler ids descriptor
    let after := made ++ (b.newSamplers ids descriptor).map .sampler
    found.2.1.Faithful after ∧ Numbers found.2.2 after ∧ found.1 ∈ found.2.1.samplers ∧
      found.1.descriptor = descriptor := by
  intro found after
  rcases b.sampler_cases ids descriptor with ⟨s, hmem, hs, heq, hnew⟩ | ⟨hnone, heq, hnew⟩
  · simp only [found, after, heq, hnew, List.map_nil, List.append_nil]
    exact ⟨h, hids, hmem, hs⟩
  · simp only [found, after, heq, hnew, List.map_singleton]
    refine ⟨⟨?_, ?_, h.keys, ?_⟩, hids.draw rfl, List.mem_append_right _ List.mem_cons_self, trivial⟩
    · intro s hs
      rcases List.mem_append.1 hs with hs | hs
      · exact List.mem_append_left _ (h.samplers s hs)
      · rw [List.mem_singleton.1 hs]
        exact List.mem_append_right _ List.mem_cons_self
    · rw [List.map_append, List.map_singleton, ← List.concat_eq_append]
      refine h.descriptors.concat fun hold => ?_
      obtain ⟨s, hs, heq⟩ := List.mem_map.1 hold
      exact hnone s hs heq
    · intro entry hentry
      obtain ⟨htexture, hsampler⟩ := h.cached entry hentry
      exact ⟨List.mem_append_left _ htexture, List.mem_append_left _ hsampler⟩

/-- A binding that is found or made is of the texture and of a sampler with the description. -/
theorem Faithful.bind (h : b.Faithful made) (hids : Numbers ids made) {texture : Texture}
    (htexture : .texture texture ∈ made) (descriptor : Sampler) :
    let bound := b.bind ids texture descriptor
    let after := made ++ (b.newSamplers ids descriptor).map .sampler
    bound.2.1.Faithful after ∧ Numbers bound.2.2 after ∧ bound.1.texture = texture ∧
      bound.1.sampler.descriptor = descriptor := by
  intro bound after
  obtain ⟨hafter, hnumbers, hmem, hdescriptor⟩ := h.sampler hids descriptor
  have hmade : .texture texture ∈ after := List.mem_append_left _ htexture
  simp only [bound, Bindings.bind]
  split
  · rename_i binding hlookup
    obtain ⟨before, rest, hcached, -⟩ := List.lookup_eq_some_iff.1 hlookup
    have hentry : ((texture.id, (b.sampler ids descriptor).1.id), binding) ∈
        (b.sampler ids descriptor).2.1.cached := by
      rw [hcached]
      exact List.mem_append_right _ List.mem_cons_self
    obtain ⟨hbound, hsampler⟩ := hafter.cached _ hentry
    obtain ⟨hid, hsamplerId⟩ := Prod.mk.inj (hafter.keys _ hentry)
    have htextures := hnumbers.eq_of_id_eq hmade hbound hid
    have hsamplers := hnumbers.eq_of_id_eq (hafter.samplers _ hmem) (hafter.samplers _ hsampler)
      hsamplerId
    rw [Tracked.sampler.inj hsamplers] at hdescriptor
    exact ⟨hafter, hnumbers, (Tracked.texture.inj htextures).symm, hdescriptor⟩
  · refine ⟨⟨hafter.samplers, hafter.descriptors, ?_, ?_⟩, hnumbers, rfl, hdescriptor⟩
    · exact List.forall_mem_cons.2 ⟨rfl, hafter.keys⟩
    · exact List.forall_mem_cons.2 ⟨⟨hmade, hmem⟩, hafter.cached⟩

end Bindings

/-! ## Targets -/

/-- The textures that had to be created. -/
def Allocation.newTextures (a : Allocation) : List Texture := if a.created then [a.texture] else []

theorem Pool.allocate_numbers {p : Pool} {ids : Identities} {made : List Tracked}
    (hpool : ∀ t ∈ p.textures, .texture t ∈ made) (hids : Numbers ids made) (key : TextureKey) :
    let a := p.allocate ids key
    let after := made ++ a.newTextures.map .texture
    (∀ t ∈ a.pool.textures, .texture t ∈ after) ∧ Numbers a.ids after ∧
      .texture a.texture ∈ after := by
  intro a after
  have hrest (htexture : .texture a.texture ∈ after) :
      ∀ t ∈ a.pool.textures, .texture t ∈ after := by
    intro t ht
    rcases Pool.mem_textures_allocate ht with hold | rfl
    · exact List.mem_append_left _ (hpool t hold)
    · exact htexture
  rcases p.allocate_textures ids key with ⟨t, free, heq, hperm, -⟩ | ⟨t, hid, -, heq⟩
  · have ha : a = _ := heq
    have hidle : t ∈ p.idle := hperm.mem_iff.1 List.mem_cons_self
    have htexture : .texture a.texture ∈ after := by
      rw [ha]
      exact List.mem_append_left _ (hpool t (List.mem_append_right _ hidle))
    have hafter : after = made := by simp [after, ha, Allocation.newTextures]
    refine ⟨hrest htexture, ?_, htexture⟩
    rw [hafter, ha]
    exact hids
  · have ha : a = _ := heq
    have hafter : after = made ++ [.texture t] := by simp [after, ha, Allocation.newTextures]
    have htexture : .texture a.texture ∈ after := by
      rw [hafter, ha]
      exact List.mem_append_right _ List.mem_cons_self
    refine ⟨hrest htexture, ?_, htexture⟩
    rw [hafter, ha]
    exact hids.draw hid

/-! ## Renderers -/

/-- The pool and the bindings of a renderer are accounted for. -/
structure Renderer.Faithful (r : Renderer) (made : List Tracked) : Prop where
  pool : ∀ t ∈ r.pool.textures, .texture t ∈ made
  bindings : r.bindings.Faithful made

theorem Renderer.Faithful.append {r : Renderer} {made : List Tracked} (h : r.Faithful made)
    (more : List Tracked) : r.Faithful (made ++ more) where
  pool t ht := List.mem_append_left _ (h.pool t ht)
  bindings := h.bindings.append more

theorem Renderer.Faithful.unbind {r : Renderer} {made : List Tracked} (h : r.Faithful made) :
    r.unbind.Faithful made where
  pool := h.pool
  bindings := h.bindings.endFrame

theorem Renderer.Faithful.reclaim {r : Renderer} {made : List Tracked} (h : r.Faithful made)
    (held : Texture → Bool) : (r.reclaim held).Faithful made where
  pool t ht :=
    h.pool t ((r.pool.reset_textures held).mem_iff.1 ((Pool.trim_textures _ _).subset ht))
  bindings := h.bindings

/-! ## Stages -/

/-- A stage that was accepted, with what the device was told and what was made for it. -/
structure Drawn where
  subpass : Subpass Binary32 Texture
  draw : Draw
  made : List Tracked

/-- It is drawn with the texture that the stage reads, and a sampler made as the stage says. -/
def Drawn.IsBound (d : Drawn) : Prop :=
  d.draw.binding.texture = d.subpass.input ∧
    d.draw.binding.sampler.descriptor = d.subpass.sampler

namespace Host

/-- What is made for an accepted stage. -/
def made (host : Host) (subpass : Subpass Binary32 Texture) : List Tracked :=
  let a := host.allocation subpass
  a.newTextures.map .texture ++
    (host.renderer.bindings.newSamplers a.ids subpass.sampler).map .sampler

/-- What comes of some stages one after the other, as far as they are accepted. -/
def replay (host : Host) : List (Subpass Binary32 Texture) → List Drawn
  | [] => []
  | subpass :: subpasses =>
    match (prepare subpass).start host with
    | (.ok draw, after) => ⟨subpass, draw, host.made subpass⟩ :: after.state.replay subpasses
    | (.error _, after) => after.state.replay subpasses

/-- The objects got the identities that the host drew, and its renderer is accounted for. -/
structure Faithful (host : Host) (made : List Tracked) : Prop where
  numbers : Numbers host.ids made
  renderer : host.renderer.Faithful made

variable {host after : Host} {made : List Tracked} {subpass : Subpass Binary32 Texture}

theorem replay_refused {e : RenderError} (h : host.renderer.refusal? subpass.toPass = some e)
    (subpasses : List (Subpass Binary32 Texture)) :
    host.replay (subpass :: subpasses) = host.replay subpasses := by
  have hprepare := runFrom_prepare_refused ⟨host, []⟩ subpass h
  simp only [replay, Action.start_eq_runFrom, hprepare]

theorem replay_drawn (h : host.renderer.refusal? subpass.toPass = none)
    (subpasses : List (Subpass Binary32 Texture)) :
    ∃ draw, host.replay (subpass :: subpasses) =
        ⟨subpass, draw, host.made subpass⟩ :: (host.drawn subpass).replay subpasses ∧
      draw.target = (host.allocation subpass).texture ∧ draw.binding = (host.bound subpass).1 := by
  obtain ⟨draw, hprepare, hdraw⟩ := runFrom_prepare_accepted ⟨host, []⟩ subpass h
  refine ⟨draw, ?_, hdraw⟩
  simp only [replay, Action.start_eq_runFrom, hprepare]

/-- An accepted stage that reads a texture in the account is bound to it. -/
theorem Faithful.drawn (h : host.Faithful made) (hinput : .texture subpass.input ∈ made) :
    (host.drawn subpass).Faithful (made ++ host.made subpass) ∧
      .texture (host.allocation subpass).texture ∈ made ++ host.made subpass ∧
      (host.bound subpass).1.texture = subpass.input ∧
      (host.bound subpass).1.sampler.descriptor = subpass.sampler := by
  let targets := (host.allocation subpass).newTextures.map Tracked.texture
  obtain ⟨hpool, hids, htarget⟩ := Pool.allocate_numbers h.renderer.pool h.numbers
    (host.renderer.targetKey subpass.size)
  have hbindings := h.renderer.bindings.append targets
  obtain ⟨hafter, hnumbers, htexture, hdescriptor⟩ :=
    hbindings.bind hids (List.mem_append_left _ hinput) subpass.sampler
  rw [Host.made, ← List.append_assoc]
  refine ⟨⟨hnumbers, fun t ht => List.mem_append_left _ (hpool t ht), hafter⟩, ?_, htexture,
    hdescriptor⟩
  exact List.mem_append_left _ htarget

/-! ### What stages read -/

/-- Every call reads a known texture or the target of one before it. -/
def Linked : List Texture → List (Call Binary32 Texture) → Prop
  | _, [] => True
  | known, call :: calls => call.subpass.input ∈ known ∧ Linked (known ++ targets [call]) calls

theorem linked_chained {s final : Host} {t : Texture} {passes : List (Pass Binary32)}
    {calls : List (Call Binary32 Texture)} {outcome : Except RenderError Texture}
    (h : Chained Host.subpassRenderer s t passes calls outcome final) {known : List Texture}
    (ht : t ∈ known) : Linked known calls := by
  induction h generalizing known with
  | done => trivial
  | failed => exact ⟨ht, trivial⟩
  | rendered _ _ ih => exact ⟨ht, ih (List.mem_append_right _ List.mem_cons_self)⟩

/-- Stages that read what is in the account are all bound to it, and what they make goes into the
    account. -/
theorem Serves.faithful {known : List Texture} {calls : List (Call Binary32 Texture)}
    {log : List (Event Binary32)} (hserves : host.Serves calls log after)
    (h : host.Faithful made) (hknown : ∀ t ∈ known, .texture t ∈ made)
    (hlinked : Linked known calls) :
    let drawn := host.replay (calls.map (·.subpass))
    let all := made ++ drawn.flatMap (·.made)
    after.Faithful all ∧ (∀ t ∈ targets calls, .texture t ∈ all) ∧
      drawn.map (fun d => ⟨d.subpass, .ok d.draw.target⟩) = calls.filter (·.answer.isOk) ∧
      ∀ d ∈ drawn, d.IsBound := by
  induction hserves generalizing made known with
  | idle =>
    simpa [replay] using h
  | @refused host subpass e calls log after hrefusal _ ih =>
    obtain ⟨-, hrest⟩ := hlinked
    rw [List.map_cons, replay_refused hrefusal]
    have hsame : known ++ targets [⟨subpass, .error e⟩] = known := List.append_nil _
    exact ih h hknown (hsame ▸ hrest)
  | @rendered host subpass calls log after hrefusal _ ih =>
    obtain ⟨hinput, hrest⟩ := hlinked
    obtain ⟨draw, hreplay, htarget, hbinding⟩ :=
      replay_drawn hrefusal (calls.map (·.subpass))
    obtain ⟨hdrawn, hmade, htexture, hdescriptor⟩ := h.drawn (hknown _ hinput)
    have hknown' : ∀ t ∈ known ++ targets [⟨subpass, .ok (host.allocation subpass).texture⟩],
        .texture t ∈ made ++ host.made subpass := by
      intro t ht
      rcases List.mem_append.1 ht with ht | ht
      · exact List.mem_append_left _ (hknown t ht)
      · exact List.mem_singleton.1 ht ▸ hmade
    obtain ⟨hafter, htargets, hcalls, hbound⟩ := ih hdrawn hknown' hrest
    rw [List.map_cons, hreplay]
    dsimp only
    rw [List.flatMap_cons, ← List.append_assoc, List.map_cons, hcalls, htarget]
    refine ⟨hafter, ?_, rfl, ?_⟩
    · exact List.forall_mem_cons.2 ⟨List.mem_append_left _ hmade, htargets⟩
    · refine List.forall_mem_cons.2 ⟨⟨?_, ?_⟩, hbound⟩
      · rw [hbinding, htexture]
      · rw [hbinding, hdescriptor]

end Host

/-! ## Sessions -/

namespace Session

/-- The stages that a command has drawn. -/
def drawn (s : Session) (command : Command) : List Drawn :=
  s.host.replay ((s.calls command).map (·.subpass))

/-- What a command makes: a texture that is brought in, or what its stages need. -/
def made (s : Session) (command : Command) : List Tracked :=
  match command.brings, (s.step command).2.1 with
  | true, .texture t => [.texture t]
  | _, _ => (s.drawn command).flatMap (·.made)

/-- The host is accounted for, and so is every texture that is kept. -/
structure Faithful (s : Session) (made : List Tracked) : Prop where
  host : s.host.Faithful made
  handles : ∀ t ∈ s.handles.textures, .texture t ∈ made

variable {s : Session} {made : List Tracked}

theorem render_linked {named : List NamedInput}
    {inputs : List (FilterInput Binary32 Host Texture)} (hinputs : s.inputs named = .ok inputs)
    (b : Blur Binary32) (entity : Entity Binary32) (effect : Matrix4 Binary32)
    (hint : Option (Rect Binary32)) (log : List (Event Binary32)) :
    Host.Linked s.handles.textures
      (b.calls Host.subpassRenderer inputs entity effect hint ⟨s.host, log⟩) := by
  obtain ⟨calls, result, final, log', hcalls, -, h⟩ :=
    b.renders Host.subpassRenderer entity inputs effect hint ⟨s.host, log⟩
  rw [hcalls]
  cases named with
  | nil =>
    cases hinputs
    cases h with
    | noInput => trivial
  | cons n named =>
    obtain ⟨t, rest, hfind, -, rfl⟩ := inputs_cons_ok hinputs
    cases h with
    | blurred hsnapshot _ _ hissues =>
      cases hsnapshot
      obtain ⟨_, _, _, -, -, hchain, -⟩ := hissues.chain
      exact Host.linked_chained hchain (Handles.find?_mem hfind)
    | _ => trivial

/-- The calls of a command read textures that are kept, or targets of calls before. -/
theorem calls_linked (s : Session) (command : Command) :
    Host.Linked s.handles.textures (s.calls command) := by
  cases command with
  | subpass input pass name =>
    simp only [calls]
    split
    · rename_i texture hfind
      exact ⟨Handles.find?_mem hfind, trivial⟩
    · trivial
  | render blur named entity effect hint name =>
    simp only [calls]
    split
    · rename_i inputs hinputs
      exact render_linked hinputs blur entity effect hint blur.warnings
    · trivial
  | _ => trivial

theorem drawn_of_calls_eq_nil {command : Command} (h : s.calls command = []) :
    s.drawn command = [] := by
  rw [drawn, h]
  rfl

theorem made_of_stages {command : Command} {reply : Reply}
    (h : command.brings = false ∨ ∃ e, reply = .failed e)
    (hreply : (s.step command).2.1 = reply) :
    s.made command = (s.drawn command).flatMap (·.made) := by
  unfold made
  rw [hreply]
  rcases h with hbrings | ⟨e, rfl⟩
  · rw [hbrings]
  · cases command.brings with
    | false => rfl
    | true => rfl

theorem made_of_brings {command : Command} {t : Texture} (h : command.brings = true)
    (hreply : (s.step command).2.1 = .texture t) : s.made command = [.texture t] := by
  unfold made
  rw [hreply, h]

/-- What a command draws is bound to what it reads, and what it makes goes into the account. -/
theorem step_faithful (h : s.Faithful made) (command : Command) :
    (s.step command).1.Faithful (made ++ s.made command) ∧
      (s.drawn command).map (fun d => ⟨d.subpass, .ok d.draw.target⟩) =
        (s.calls command).filter (·.answer.isOk) ∧
      ∀ d ∈ s.drawn command, d.IsBound := by
  have hlinked := s.calls_linked command
  have hacts := s.step_acts command
  cases hstep : s.step command with
  | mk after done =>
    rw [hstep] at hacts
    cases hacts with
    | stages hends hbrings hserves hhandles =>
      obtain ⟨hhost, htargets, hdrawn⟩ := hserves.faithful h.host h.handles hlinked
      rw [made_of_stages hbrings (by rw [hstep])]
      refine ⟨⟨hhost, fun t ht => ?_⟩, hdrawn⟩
      rcases hhandles t ht with hold | htarget
      · exact List.mem_append_left _ (h.handles t hold)
      · exact htargets t htarget
    | @brings command t handles hbrings hid hhandles =>
      have hcalls := calls_of_brings (s := s) hbrings
      rw [made_of_brings hbrings (by rw [hstep]), drawn_of_calls_eq_nil hcalls, hcalls]
      refine ⟨⟨⟨h.host.numbers.draw hid, h.host.renderer.append _⟩, fun u hu => ?_⟩, rfl,
        List.forall_mem_nil _⟩
      rcases hhandles u hu with hold | rfl
      · exact List.mem_append_left _ (h.handles u hold)
      · exact List.mem_append_right _ List.mem_cons_self
    | endFrame =>
      have hcalls : s.calls .endFrame = [] := rfl
      rw [made_of_stages (.inl rfl) (by rw [hstep]), drawn_of_calls_eq_nil hcalls, hcalls,
        List.flatMap_nil, List.append_nil]
      exact ⟨⟨⟨h.host.numbers, h.host.renderer.unbind.reclaim _⟩, h.handles⟩, rfl,
        List.forall_mem_nil _⟩

end Session

/-! ## Fleets -/

namespace Fleet

/-- What a command makes. A new renderer has a layout. -/
def made (f : Fleet) : FleetCommand → List Tracked
  | .create .. | .draw => [.other f.ids.next]
  | .discard _ => []
  | .on index command =>
    match f.session? index with
    | some s => s.made command
    | none => []

/-- All that is made while some commands are carried out, in order. -/
def history (f : Fleet) : List FleetCommand → List Tracked
  | [] => []
  | command :: commands => f.made command ++ (f.step command).history commands

/-- All renderers and all kept textures are accounted for. -/
structure Faithful (f : Fleet) (made : List Tracked) : Prop where
  numbers : Numbers f.ids made
  renderers : ∀ r ∈ f.renderers, r.Faithful made
  handles : ∀ t ∈ f.handles.textures, .texture t ∈ made

variable {f : Fleet} {made : List Tracked}

theorem Faithful.session (h : f.Faithful made) {index : Nat} {s : Session}
    (hs : f.session? index = some s) : s.Faithful made := by
  obtain ⟨renderer, hrenderer, rfl⟩ := Option.map_eq_some_iff.1 hs
  exact ⟨⟨h.numbers, h.renderers _ (List.mem_of_getElem? hrenderer)⟩, h.handles⟩

theorem Faithful.draw (h : f.Faithful made) :
    Faithful { f with ids := f.ids.draw.2 } (made ++ [.other f.ids.next]) where
  numbers := h.numbers.draw rfl
  renderers r hr := (h.renderers r hr).append _
  handles t ht := List.mem_append_left _ (h.handles t ht)

theorem step_faithful (h : f.Faithful made) (command : FleetCommand) :
    (f.step command).Faithful (made ++ f.made command) := by
  cases command with
  | create settings capabilities maxDimension =>
    refine ⟨h.draw.numbers, ?_, h.draw.handles⟩
    refine List.forall_mem_append.2 ⟨h.draw.renderers, List.forall_mem_singleton.2 ?_⟩
    have hnone (p : Texture → Prop) : ∀ t ∈ ({} : Pool).textures, p t := List.forall_mem_nil p
    exact ⟨hnone _, ⟨List.forall_mem_nil _, List.nodup_nil, List.forall_mem_nil _,
      List.forall_mem_nil _⟩⟩
  | discard index =>
    rw [Fleet.made, List.append_nil]
    exact ⟨h.numbers, fun r hr => h.renderers r (List.mem_of_mem_eraseIdx hr), h.handles⟩
  | on index command =>
    simp only [step, Fleet.made]
    cases hs : f.session? index with
    | none =>
      rw [List.append_nil]
      exact h
    | some s =>
      obtain ⟨hafter, -⟩ := Session.step_faithful (h.session hs) command
      refine ⟨hafter.host.numbers, fun r hr => ?_, hafter.handles⟩
      rcases List.mem_or_eq_of_mem_set hr with hr | rfl
      · exact (h.renderers r hr).append _
      · exact hafter.host.renderer
  | draw => exact h.draw

theorem foldl_faithful (h : f.Faithful made) (commands : List FleetCommand) :
    (f.run commands).Faithful (made ++ f.history commands) := by
  induction commands generalizing f made with
  | nil =>
    rw [history, List.append_nil]
    exact h
  | cons command commands ih =>
    have hrest := ih (step_faithful h command)
    rw [List.append_assoc] at hrest
    exact hrest

/-- In any run of several renderers, no identity is drawn for two objects. All textures that are
    kept or in a pool or a cache, and all samplers, are among the objects that identities were
    drawn for. Every renderer has one sampler for each description at most, and finds each binding
    under the identities of the texture and the sampler that it is of. Whatever is done next, each
    stage that succeeds is drawn with a binding of the texture that it reads and of a sampler made
    as it says. -/
theorem run_binds (commands : List FleetCommand) :
    let f := run {} commands
    let made := history {} commands
    (made.map Tracked.id).Nodup ∧
    made.map Tracked.id = List.range' 1 made.length ∧ f.ids.next = made.length + 1 ∧
    (∀ t ∈ f.handles.textures, .texture t ∈ made) ∧
    (∀ r ∈ f.renderers,
      (∀ t ∈ r.pool.textures, .texture t ∈ made) ∧
      (∀ s ∈ r.bindings.samplers, .sampler s ∈ made) ∧
      (r.bindings.samplers.map (·.descriptor)).Nodup ∧
      ∀ entry ∈ r.bindings.cached, entry.1 = (entry.2.texture.id, entry.2.sampler.id) ∧
        .texture entry.2.texture ∈ made ∧ entry.2.sampler ∈ r.bindings.samplers) ∧
    ∀ index s, f.session? index = some s → ∀ command,
      (s.drawn command).map (fun d => ⟨d.subpass, .ok d.draw.target⟩) =
        (s.calls command).filter (·.answer.isOk) ∧
      ∀ d ∈ s.drawn command,
        d.draw.binding.texture = d.subpass.input ∧
        d.draw.binding.sampler.descriptor = d.subpass.sampler := by
  intro f made
  have hempty : Faithful {} [] := ⟨⟨rfl, rfl⟩, List.forall_mem_nil _, List.forall_mem_nil _⟩
  have h : f.Faithful made := foldl_faithful hempty commands
  refine ⟨h.numbers.nodup, h.numbers.order, h.numbers.next, h.handles, fun r hr => ?_, ?_⟩
  · obtain ⟨hpool, hbindings⟩ := h.renderers r hr
    exact ⟨hpool, hbindings.samplers, hbindings.descriptors, fun entry hentry =>
      ⟨hbindings.keys entry hentry, hbindings.cached entry hentry⟩⟩
  · intro index s hs command
    exact (Session.step_faithful (h.session hs) command).2

end Fleet

end SeparableBlur.Gpu
