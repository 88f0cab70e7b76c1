-- SUMMARY: The pool never holds more textures of a key than were once handed out together, and it accounts for all that it created.
import SeparableBlur.Proofs.Session

/-!
# Demand

The pool creates a texture only when it has none of that key free. So at that moment
all its textures of the key are handed out, and at no later one are there more of
them than at the highest such moment.

What was created and what was destroyed add up: `PoolSession.gather` lists the
textures that came into the pool or left it during a run.
-/

namespace SeparableBlur.Gpu

/-! ## One bucket for each key -/

namespace Bucket

theorem map_key_update (key : TextureKey) (f : List IdleTexture → List IdleTexture)
    (buckets : List Bucket) :
    (update key f buckets).map (·.key) =
      if key ∈ buckets.map (·.key) then buckets.map (·.key) else buckets.map (·.key) ++ [key] := by
  induction buckets with
  | nil => rfl
  | cons bucket buckets ih =>
    rcases eq_or_ne bucket.key key with rfl | hne
    · rw [update, if_pos rfl, if_pos (by simp)]
      rfl
    · have hmem : key ∈ bucket.key :: buckets.map (·.key) ↔ key ∈ buckets.map (·.key) := by
        simp [hne.symm]
      rw [update, if_neg hne, List.map_cons, List.map_cons, ih]
      split
      · rename_i hold
        rw [if_pos (hmem.2 hold)]
      · rename_i hnew
        rw [if_neg (mt hmem.1 hnew)]
        rfl

theorem update_nodup {buckets : List Bucket} (h : (buckets.map (·.key)).Nodup) (key : TextureKey)
    (f : List IdleTexture → List IdleTexture) : ((update key f buckets).map (·.key)).Nodup := by
  rw [map_key_update]
  split
  · exact h
  · rename_i hnew
    exact List.nodup_append.2 ⟨h, List.nodup_singleton key, by simpa using hnew⟩

theorem foldl_release_nodup (released : List Texture) {buckets : List Bucket}
    (h : (buckets.map (·.key)).Nodup) :
    ((released.foldl release buckets).map (·.key)).Nodup := by
  induction released generalizing buckets with
  | nil => exact h
  | cons t released ih => exact ih (update_nodup h t.key _)

theorem trim_nodup {buckets : List Bucket} (h : (buckets.map (·.key)).Nodup) (limit : UInt32) :
    (((buckets.map (age limit)).filter (!·.idle.isEmpty)).map (·.key)).Nodup := by
  have hkeys : (buckets.map (age limit)).map (·.key) = buckets.map (·.key) := by
    rw [List.map_map]
    rfl
  have hsub := (List.filter_sublist (l := buckets.map (age limit))
    (p := (!·.idle.isEmpty))).map (·.key)
  rw [hkeys] at hsub
  exact h.sublist hsub

/-- The bucket of a key holds the free textures of that key. -/
theorem mem_find_iff {buckets : List Bucket} (hkeyed : Keyed buckets)
    (hkeys : (buckets.map (·.key)).Nodup) {key : TextureKey} {entry : IdleTexture} :
    entry ∈ find buckets key ↔ entry ∈ buckets.flatMap (·.idle) ∧ entry.texture.key = key := by
  induction buckets with
  | nil => simp [find]
  | cons bucket buckets ih =>
    obtain ⟨hbucket, hbuckets⟩ := List.forall_mem_cons.1 hkeyed
    obtain ⟨hnew, hnodup⟩ := List.nodup_cons.1 hkeys
    have hkey : ∀ {entry : IdleTexture}, entry ∈ bucket.idle → entry.texture.key = bucket.key :=
      fun hentry => hbucket _ (List.mem_map_of_mem hentry)
    rw [List.flatMap_cons, List.mem_append]
    rcases eq_or_ne bucket.key key with rfl | hne
    · rw [find_cons_self]
      constructor
      · intro hentry
        exact ⟨.inl hentry, hkey hentry⟩
      · rintro ⟨hentry | hentry, heq⟩
        · exact hentry
        · -- Another bucket with an entry of this key would have the same key.
          obtain ⟨other, hother, hentry⟩ := List.mem_flatMap.1 hentry
          have hsame := hbuckets other hother _ (List.mem_map_of_mem hentry)
          exact absurd (List.mem_map.2 ⟨other, hother, hsame.symm.trans heq⟩) hnew
    · rw [find_cons_of_ne hne, ih hbuckets hnodup]
      constructor
      · rintro ⟨hentry, heq⟩
        exact ⟨.inr hentry, heq⟩
      · rintro ⟨hentry | hentry, heq⟩
        · exact absurd ((hkey hentry).symm.trans heq) hne
        · exact ⟨hentry, heq⟩

/-- It is empty where no texture of the key is free. -/
theorem find_eq_nil_iff {buckets : List Bucket} (hkeyed : Keyed buckets)
    (hkeys : (buckets.map (·.key)).Nodup) (key : TextureKey) :
    find buckets key = [] ↔ ∀ t ∈ buckets.flatMap textures, t.key ≠ key := by
  rw [List.eq_nil_iff_forall_not_mem, flatMap_textures, List.forall_mem_map]
  simp only [mem_find_iff hkeyed hkeys, not_and]

end Bucket

/-! ## Pools -/

namespace Pool

theorem created_iff_find (p : Pool) (ids : Identities) (key : TextureKey) :
    (p.allocate ids key).created = true ↔ Bucket.find p.free key = [] := by
  rw [← List.getLast?_eq_none_iff]
  unfold allocate
  split <;> simp_all

theorem totalCount_eq_length (p : Pool) : p.totalCount = p.textures.length := by
  rw [textures, List.length_append, idle_eq_map_entries, List.length_map]
  rfl

/-- The number of textures of the key in the pool. -/
def population (p : Pool) (key : TextureKey) : Nat := p.textures.countP (·.key = key)

/-- The number of textures of the key that are handed out. -/
def demand (p : Pool) (key : TextureKey) : Nat := p.active.countP (·.key = key)

variable {p : Pool}

/-- A texture is created exactly where none of its key is free. -/
theorem created_iff (hkeyed : Bucket.Keyed p.free) (hkeys : (p.free.map (·.key)).Nodup)
    (ids : Identities) (key : TextureKey) :
    (p.allocate ids key).created = true ↔ ∀ t ∈ p.idle, t.key ≠ key := by
  rw [created_iff_find]
  exact Bucket.find_eq_nil_iff hkeyed hkeys key

/-- A texture that is created is none of those in the pool and none that is held, and one that is
    not created was free. -/
theorem Sound.allocate_origin {ids : Identities} {outside : List Texture}
    (h : p.Sound ids outside) (key : TextureKey) :
    let a := p.allocate ids key
    (a.created = true → ∀ t ∈ p.textures ++ outside, t.id ≠ a.texture.id) ∧
      (a.created = false → a.texture ∈ p.idle) := by
  intro a
  rcases p.allocate_textures ids key with ⟨t, free, heq, hperm, -⟩ | ⟨t, hid, -, heq⟩
  · simp only [a, heq]
    exact ⟨nofun, fun _ => hperm.mem_iff.1 List.mem_cons_self⟩
  · simp only [a, heq, hid]
    refine ⟨fun _ => List.forall_mem_append.2 ⟨fun u hu => ?_, fun u hu => ?_⟩, nofun⟩
    · exact Nat.ne_of_lt (h.drawn u hu)
    · exact Nat.ne_of_lt (h.outside_drawn u hu)

/-- Handing out a texture adds nothing to the pool, or all of the key are handed out. -/
theorem allocate_population (hkeyed : Bucket.Keyed p.free) (hkeys : (p.free.map (·.key)).Nodup)
    (ids : Identities) (wanted key : TextureKey) :
    let after := (p.allocate ids wanted).pool
    after.population key ≤ p.population key ∨ after.population key ≤ after.demand key := by
  intro after
  rcases p.allocate_textures ids wanted with ⟨t, free, heq, hperm, -⟩ | ⟨t, -, htkey, heq⟩
  · left
    have hafter : after.textures.Perm p.textures := by
      simp only [after, heq, textures, List.append_assoc]
      exact hperm.append_left _
    exact Nat.le_of_eq (hafter.countP_eq _)
  · have hcreated : (p.allocate ids wanted).created = true := by rw [heq]
    have hnone := (created_iff hkeyed hkeys ids wanted).1 hcreated
    have hafter : after = ⟨p.active ++ [t], p.free⟩ := by simp only [after, heq]
    rcases eq_or_ne wanted key with rfl | hne
    · right
      have hidle : p.idle.countP (·.key = wanted) = 0 :=
        List.countP_eq_zero.2 fun u hu => by simpa using hnone u hu
      rw [hafter, population, demand, textures, List.countP_append]
      exact Nat.le_of_eq (congrArg _ hidle)
    · left
      have ht : [t].countP (·.key = key) = 0 :=
        List.countP_eq_zero.2 fun u hu => by simp_all
      rw [hafter, population, population, textures, textures]
      simp only [List.countP_append, ht]
      exact Nat.le_refl _

theorem reset_population (p : Pool) (held : Texture → Bool) (key : TextureKey) :
    (p.reset held).population key = p.population key :=
  (p.reset_textures held).countP_eq _

theorem trim_population (p : Pool) (limit : UInt32) (key : TextureKey) :
    (p.trim limit).population key ≤ p.population key :=
  (p.trim_textures limit).countP_le

theorem allocate_nodup (hkeys : (p.free.map (·.key)).Nodup) (ids : Identities)
    (key : TextureKey) : ((p.allocate ids key).pool.free.map (·.key)).Nodup := by
  unfold allocate
  split
  · exact Bucket.update_nodup hkeys key _
  · exact hkeys

end Pool

/-! ## Runs of a pool -/

namespace PoolSession

/-- The pool is sound while the handles are held, and has one bucket for each key. -/
structure Sound (s : PoolSession) : Prop where
  sound : s.pool.Sound s.ids s.handles.textures
  nodup : (s.pool.free.map (·.key)).Nodup

variable {s : PoolSession}

theorem create_sound (ids : Identities) : Sound { ids } :=
  ⟨⟨List.nodup_nil, nofun, nofun, nofun, nofun⟩, List.nodup_nil⟩

theorem step_sound (h : s.Sound) (command : PoolCommand) : (s.step command).1.Sound := by
  cases command with
  | allocate key label name =>
    refine ⟨(h.sound.allocate key).1.mono (Nat.le_refl _) fun t ht => ?_,
      Pool.allocate_nodup h.nodup s.ids key⟩
    rcases Handles.mem_of_keep? ht with rfl | ht
    · exact List.mem_cons_self
    · exact List.mem_cons_of_mem _ ht
  | copy source name =>
    simp only [step]
    split
    · rename_i texture hfind
      refine ⟨h.sound.mono (Nat.le_refl _) fun t ht => ?_, h.nodup⟩
      rcases Handles.mem_of_keep ht with rfl | ht
      · exact Handles.find?_mem hfind
      · exact ht
    · exact h
  | drop name =>
    exact ⟨h.sound.mono (Nat.le_refl _) fun t ht => Handles.mem_of_drop ht, h.nodup⟩
  | reset =>
    refine ⟨h.sound.reset fun t ht u hu => ?_, Bucket.foldl_release_nodup _ h.nodup⟩
    exact (Handles.holds_eq_false.1 hu t ht).symm
  | trim limit => exact ⟨h.sound.trim limit, Bucket.trim_nodup h.nodup limit⟩

/-- A command adds nothing to the pool, or all textures of the key are handed out after it. -/
theorem step_population (h : s.Sound) (command : PoolCommand) (key : TextureKey) :
    let after := (s.step command).1.pool
    after.population key ≤ s.pool.population key ∨ after.population key ≤ after.demand key := by
  cases command with
  | allocate wanted label name =>
    exact Pool.allocate_population h.sound.keyed h.nodup s.ids wanted key
  | copy source name =>
    simp only [step]
    split <;> exact .inl (Nat.le_refl _)
  | drop name => exact .inl (Nat.le_refl _)
  | reset => exact .inl (Nat.le_of_eq (s.pool.reset_population _ key))
  | trim limit => exact .inl (s.pool.trim_population limit key)

/-! ### What comes and goes -/

/-- The textures that a command creates. -/
def creates (s : PoolSession) : PoolCommand → List Texture
  | .allocate key _ _ =>
    let a := s.pool.allocate s.ids key
    if a.created then [a.texture] else []
  | _ => []

/-- The textures that were in the pool before it was trimmed and are not any more. -/
def trims (s : PoolSession) : PoolCommand → List Texture
  | .trim limit =>
    s.pool.textures.filter fun t => t ∉ ((s.step (.trim limit)).1.pool.textures)
  | _ => []

/-- The textures that `f` lists for each command of a run, in order. -/
def gather (f : PoolSession → PoolCommand → List Texture) (s : PoolSession) :
    List PoolCommand → List Texture
  | [] => []
  | command :: commands => f s command ++ gather f (s.step command).1 commands

theorem trims_perm (h : s.Sound) (limit : UInt32) :
    s.pool.textures.Perm ((s.pool.trim limit).textures ++ s.trims (.trim limit)) := by
  have hsub := s.pool.trim_textures limit
  have hnodup : s.pool.textures.Nodup := h.sound.nodup.of_map
  have hkept : (s.pool.textures.filter fun t => t ∈ (s.pool.trim limit).textures).Perm
      (s.pool.trim limit).textures := by
    refine (List.perm_ext_iff_of_nodup (hnodup.filter _) (hnodup.sublist hsub)).2 fun t => ?_
    rw [List.mem_filter, decide_eq_true_iff]
    exact ⟨And.right, fun ht => ⟨hsub.subset ht, ht⟩⟩
  have htrims : s.trims (.trim limit) =
      s.pool.textures.filter fun t => !decide (t ∈ (s.pool.trim limit).textures) :=
    List.filter_congr fun t _ => decide_not
  rw [htrims]
  exact (List.filter_append_perm _ _).symm.trans (hkept.append_right _)

/-- What was in the pool and what is created is in the pool afterwards or is trimmed. -/
theorem step_conserves (h : s.Sound) (command : PoolCommand) :
    (s.pool.textures ++ s.creates command).Perm
      ((s.step command).1.pool.textures ++ s.trims command) := by
  cases command with
  | allocate key label name =>
    simp only [step, creates, trims, List.append_nil]
    rcases s.pool.allocate_textures s.ids key with ⟨t, free, heq, hperm, -⟩ | ⟨t, -, -, heq⟩
    · simp only [heq, Bool.false_eq_true, if_false, List.append_nil, Pool.textures,
        List.append_assoc]
      exact (hperm.append_left _).symm
    · simp only [heq, if_true, Pool.textures, List.append_assoc]
      exact List.perm_append_comm.append_left _
  | copy source name =>
    simp only [step, creates, trims, List.append_nil]
    split <;> exact .refl _
  | drop name => exact .refl _
  | reset =>
    simp only [step, creates, trims, List.append_nil]
    exact (s.pool.reset_textures _).symm
  | trim limit =>
    simp only [step, creates, List.append_nil]
    exact trims_perm h limit

theorem run_conserves (h : s.Sound) (commands : List PoolCommand) :
    (s.pool.textures ++ s.gather creates commands).Perm
      ((s.run commands).pool.textures ++ s.gather trims commands) := by
  induction commands generalizing s with
  | nil => exact .refl _
  | cons command commands ih =>
    have hfirst := (step_conserves h command).append_right
      (gather creates (s.step command).1 commands)
    have hrest := (ih (step_sound h command)).append_left (s.trims command)
    rw [gather, gather, ← List.append_assoc]
    refine hfirst.trans ?_
    rw [List.append_assoc]
    exact (List.perm_append_comm_assoc ..).trans (hrest.trans (List.perm_append_comm_assoc ..))

theorem foldl_sound (h : s.Sound) (commands : List PoolCommand) : (s.run commands).Sound := by
  induction commands generalizing s with
  | nil => exact h
  | cons command commands ih => exact ih (step_sound h command)

theorem run_append (s : PoolSession) (commands : List PoolCommand) (command : PoolCommand) :
    s.run (commands ++ [command]) = ((s.run commands).step command).1 := by
  rw [run, List.foldl_append]
  rfl

/-- At some moment of a run as many textures of a key were handed out as the pool has now. -/
theorem exists_demand (h : s.Sound) (hempty : s.pool.textures = []) (commands : List PoolCommand)
    (key : TextureKey) :
    ∃ earlier later, commands = earlier ++ later ∧
      (s.run commands).pool.population key ≤ (s.run earlier).pool.demand key := by
  induction commands using List.reverseRecOn with
  | nil =>
    refine ⟨[], [], rfl, ?_⟩
    have hnone : s.pool.population key = 0 := by rw [Pool.population, hempty, List.countP_nil]
    exact hnone ▸ Nat.zero_le _
  | append_singleton commands command ih =>
    obtain ⟨earlier, later, hcommands, hdemand⟩ := ih
    rw [run_append]
    rcases step_population (foldl_sound h commands) command key with hsame | hall
    · refine ⟨earlier, later ++ [command], ?_, hsame.trans hdemand⟩
      rw [hcommands, List.append_assoc]
    · refine ⟨commands ++ [command], [], (List.append_nil _).symm, ?_⟩
      rwa [run_append]

/-- After any run the pool has no more textures of a key than were handed out at some moment of
    it. A new one is created exactly where none of that key is free. All textures that were
    created are in the pool, or trimming has destroyed them. -/
theorem run_demand (ids : Identities) (commands : List PoolCommand) :
    let start : PoolSession := { ids }
    let s := start.run commands
    (∀ key, ∃ earlier later, commands = earlier ++ later ∧
      s.pool.population key ≤ (start.run earlier).pool.demand key) ∧
    (∀ key, let a := s.pool.allocate s.ids key
      (a.created = true ↔ ∀ t ∈ s.pool.idle, t.key ≠ key) ∧
      (a.created = true → ∀ t ∈ s.pool.textures ++ s.handles.textures, t.id ≠ a.texture.id) ∧
      (a.created = false → a.texture ∈ s.pool.idle)) ∧
    (start.gather creates commands).length =
      s.pool.totalCount + (start.gather trims commands).length := by
  intro start s
  have hstart : start.Sound := create_sound ids
  have hsound : s.Sound := foldl_sound hstart commands
  refine ⟨fun key => exists_demand hstart rfl commands key, fun key => ?_, ?_⟩
  · exact ⟨Pool.created_iff hsound.sound.keyed hsound.nodup s.ids key,
      hsound.sound.allocate_origin key⟩
  · have hconserves := (run_conserves hstart commands).length_eq
    rw [Pool.totalCount_eq_length, ← List.length_append, ← hconserves]
    rfl

end PoolSession

end SeparableBlur.Gpu
