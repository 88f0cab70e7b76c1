-- SUMMARY: The free textures of a key stand in the order in which they were freed: the newest is reused, the oldest are destroyed.
import SeparableBlur.Proofs.Demand
import SeparableBlur.Proofs.Lifetime

/-!
# The order of free textures

A freed texture enters its bucket at the back, and all of a bucket grow older
together. So those at the front have been free the longest. The texture at the back,
which is the next to be handed out, is the youngest of its key, and those that are
past a limit stand together at the front.

Ages are counted in machine words. While none of them has come to the end of its
word they are ordered like the numbers that they count, whatever limits the pool was
trimmed with.
-/

namespace SeparableBlur.Gpu

/-! ## Buckets -/

namespace Bucket

/-- The textures that have been free the longest come first. -/
def OldestFirst (idle : List IdleTexture) : Prop := idle.Pairwise fun a b => b.frames ≤ a.frames

/-- Every age can be counted one frame further. -/
def CanAge (idle : List IdleTexture) : Prop := ∀ t ∈ idle, t.frames.toNat + 1 < UInt32.size

variable {idle : List IdleTexture} {limit : UInt32}

theorem CanAge.toNat_older (h : CanAge idle) {t : IdleTexture} (ht : t ∈ idle) :
    t.older.frames.toNat = t.frames.toNat + 1 :=
  IdleTexture.toNat_older (Nat.le_refl _) (h t ht)

namespace OldestFirst

/-- A texture that was just freed goes to the back. -/
theorem release (h : OldestFirst idle) (t : Texture) : OldestFirst (idle ++ [⟨t, 0⟩]) := by
  refine List.pairwise_append.2 ⟨h, List.pairwise_singleton _ _, ?_⟩
  intro older _ newest hnewest
  rw [List.mem_singleton.1 hnewest]
  exact UInt32.zero_le

/-- The texture at the back is the youngest. -/
theorem getLast_le (h : OldestFirst idle) {youngest : IdleTexture}
    (hlast : idle.getLast? = some youngest) : ∀ t ∈ idle, youngest.frames ≤ t.frames := by
  obtain ⟨rest, rfl⟩ := List.getLast?_eq_some_iff.1 hlast
  intro t ht
  rcases List.mem_append.1 ht with ht | ht
  · exact (List.pairwise_append.1 h).2.2 t ht youngest List.mem_cons_self
  · rw [List.mem_singleton.1 ht]
    exact UInt32.le_refl _

theorem older (h : OldestFirst idle) (hage : CanAge idle) :
    OldestFirst (idle.map .older) := by
  refine List.pairwise_map.2 (h.imp_of_mem ?_)
  intro a b ha hb hle
  rw [UInt32.le_iff_toNat_le, hage.toNat_older ha, hage.toNat_older hb]
  exact Nat.succ_le_succ (UInt32.le_iff_toNat_le.1 hle)

/-- Those that another frame takes past the limit stand at the front. -/
theorem exists_removed (h : OldestFirst idle) (hage : CanAge idle) (limit : UInt32) :
    ∃ removed kept, idle = removed ++ kept ∧
      (idle.map IdleTexture.older).filter (·.frames ≤ limit) = kept.map IdleTexture.older ∧
      (∀ t ∈ removed, limit ≤ t.frames) ∧ ∀ t ∈ kept, t.frames < limit := by
  induction idle with
  | nil => exact ⟨[], [], rfl, rfl, nofun, nofun⟩
  | cons oldest idle ih =>
    obtain ⟨hoverall, hrest⟩ := List.pairwise_cons.1 h
    have hkept : ∀ t ∈ oldest :: idle, t.older.frames ≤ limit ↔ t.frames < limit := by
      intro t ht
      rw [UInt32.le_iff_toNat_le, UInt32.lt_iff_toNat_lt, hage.toNat_older ht, Nat.succ_le_iff]
    by_cases hlimit : oldest.frames < limit
    · -- The oldest is kept, so all are.
      have hall : ∀ t ∈ oldest :: idle, t.frames < limit := by
        refine List.forall_mem_cons.2 ⟨hlimit, fun t ht => ?_⟩
        exact UInt32.lt_of_le_of_lt (hoverall t ht) hlimit
      refine ⟨[], oldest :: idle, rfl, List.filter_eq_self.2 ?_, nofun, hall⟩
      refine List.forall_mem_map.2 fun t ht => ?_
      exact decide_eq_true ((hkept t ht).2 (hall t ht))
    · obtain ⟨removed, kept, rfl, hfilter, hremoved, hyoung⟩ :=
        ih hrest fun t ht => hage t (List.mem_cons_of_mem _ ht)
      have hold : ¬oldest.older.frames ≤ limit := mt (hkept oldest List.mem_cons_self).1 hlimit
      refine ⟨oldest :: removed, kept, rfl, ?_, ?_, hyoung⟩
      · rw [List.map_cons, List.filter_cons_of_neg (by simpa using hold), hfilter]
      · exact List.forall_mem_cons.2 ⟨UInt32.not_lt.1 hlimit, hremoved⟩

end OldestFirst

theorem find_eq_nil_of_not_mem {buckets : List Bucket} {key : TextureKey}
    (h : key ∉ buckets.map (·.key)) : find buckets key = [] := by
  have hnone : buckets.find? (·.key = key) = none := by simpa using h
  rw [find, hnone]

/-- Trimming does to the bucket of a key what it does to all of them. -/
theorem find_trim {buckets : List Bucket} (hkeys : (buckets.map (·.key)).Nodup)
    (limit : UInt32) (key : TextureKey) :
    find ((buckets.map (age limit)).filter (!·.idle.isEmpty)) key =
      ((find buckets key).map IdleTexture.older).filter (·.frames ≤ limit) := by
  induction buckets with
  | nil => rfl
  | cons bucket buckets ih =>
    obtain ⟨hnew, hnodup⟩ := List.nodup_cons.1 hkeys
    have haged : (bucket.age limit).idle =
        (bucket.idle.map IdleTexture.older).filter (·.frames ≤ limit) := rfl
    rw [List.map_cons, List.filter_cons]
    rcases eq_or_ne bucket.key key with rfl | hne
    · rw [find_cons_self, ← haged]
      split
      · exact find_cons_self (bucket.age limit) _
      · -- The bucket is dropped because nothing is left in it, and there is no other of its key.
        rename_i hempty
        have hnil : (bucket.age limit).idle = [] := by simpa using hempty
        rw [ih hnodup, find_eq_nil_of_not_mem hnew, hnil]
        rfl
    · rw [find_cons_of_ne hne, ← ih hnodup]
      split
      · have haged' : (bucket.age limit).key ≠ key := hne
        exact find_cons_of_ne haged' _
      · rfl

end Bucket

/-! ## Pools -/

namespace Pool

/-- In every bucket the textures that have been free the longest come first. -/
def OldestFirst (p : Pool) : Prop := ∀ bucket ∈ p.free, Bucket.OldestFirst bucket.idle

/-- The age of every free texture can be counted one frame further. -/
def CanAge (p : Pool) : Prop := Bucket.CanAge p.entries

variable {p : Pool}

theorem CanAge.bucket (h : p.CanAge) {bucket : Bucket} (hbucket : bucket ∈ p.free) :
    Bucket.CanAge bucket.idle :=
  fun t ht => h t (List.mem_flatMap.2 ⟨bucket, hbucket, ht⟩)

theorem mem_entries_allocate {ids : Identities} {key : TextureKey} {entry : IdleTexture}
    (h : entry ∈ (p.allocate ids key).pool.entries) : entry ∈ p.entries := by
  rcases p.allocate_entries ids key with ⟨taken, free, heq, hperm, -⟩ | ⟨t, -, -, heq⟩
  · rw [heq] at h
    exact hperm.mem_iff.1 (List.mem_cons_of_mem _ h)
  · rwa [heq] at h

namespace OldestFirst

theorem find (h : p.OldestFirst) (key : TextureKey) :
    Bucket.OldestFirst (Bucket.find p.free key) :=
  Bucket.forall_find (P := fun bucket => Bucket.OldestFirst bucket.idle) h .nil

theorem allocate (h : p.OldestFirst) (ids : Identities) (key : TextureKey) :
    (p.allocate ids key).pool.OldestFirst := by
  unfold Pool.allocate
  split
  · refine Bucket.forall_update (P := fun bucket => Bucket.OldestFirst bucket.idle) h ?_
    exact (h.find key).sublist (List.dropLast_sublist _)
  · exact h

theorem reset (h : p.OldestFirst) (held : Texture → Bool) : (p.reset held).OldestFirst := by
  unfold Pool.reset Pool.OldestFirst
  generalize p.active.filter (!held ·) = released
  dsimp only
  induction released generalizing p with
  | nil => exact h
  | cons t released ih =>
    refine ih (p := { p with free := Bucket.release p.free t }) ?_
    refine Bucket.forall_update (P := fun bucket => Bucket.OldestFirst bucket.idle) h ?_
    exact (h.find t.key).release t

theorem trim (h : p.OldestFirst) (hage : p.CanAge) (limit : UInt32) :
    (p.trim limit).OldestFirst := by
  intro bucket hbucket
  obtain ⟨younger, hyounger, rfl⟩ := List.mem_map.1 (List.mem_filter.1 hbucket).1
  exact ((h younger hyounger).older (hage.bucket hyounger)).filter _

/-- Of the free textures of a key the youngest is handed out. -/
theorem allocate_youngest (h : p.OldestFirst) (hkeyed : Bucket.Keyed p.free)
    (hkeys : (p.free.map (·.key)).Nodup) (ids : Identities) (key : TextureKey)
    (hreused : (p.allocate ids key).created = false) :
    ∃ entry ∈ p.entries, entry.texture = (p.allocate ids key).texture ∧ entry.texture.key = key ∧
      ∀ other ∈ p.entries, other.texture.key = key → entry.frames ≤ other.frames := by
  have hmem : ∀ entry, entry ∈ Bucket.find p.free key ↔
      entry ∈ p.entries ∧ entry.texture.key = key := fun _ => Bucket.mem_find_iff hkeyed hkeys
  cases hlast : (Bucket.find p.free key).getLast? with
  | none =>
    rw [(p.created_iff_find ids key).2 (List.getLast?_eq_none_iff.1 hlast)] at hreused
    cases hreused
  | some entry =>
    obtain ⟨hentry, hkey⟩ := (hmem entry).1 (List.mem_of_getLast? hlast)
    refine ⟨entry, hentry, by simp only [Pool.allocate, hlast], hkey, fun other hother hsame => ?_⟩
    exact (h.find key).getLast_le hlast other ((hmem other).2 ⟨hother, hsame⟩)

/-- Trimming takes away the first textures of every bucket and leaves the others one frame older. -/
theorem exists_trimmed (h : p.OldestFirst) (hage : p.CanAge)
    (hkeys : (p.free.map (·.key)).Nodup) (limit : UInt32) (key : TextureKey) :
    ∃ removed kept, Bucket.find p.free key = removed ++ kept ∧
      Bucket.find (p.trim limit).free key = kept.map IdleTexture.older ∧
      (∀ t ∈ removed, limit ≤ t.frames) ∧ ∀ t ∈ kept, t.frames < limit := by
  rw [show Bucket.find (p.trim limit).free key = _ from Bucket.find_trim hkeys limit key]
  refine (h.find key).exists_removed ?_ limit
  exact Bucket.forall_find (P := fun bucket => Bucket.CanAge bucket.idle)
    (fun _ hbucket => hage.bucket hbucket) nofun

end OldestFirst

theorem idle_ne_nil_of_mem_trim {limit : UInt32} {bucket : Bucket}
    (h : bucket ∈ (p.trim limit).free) : bucket.idle ≠ [] := by
  have hidle := (List.mem_filter.1 h).2
  simpa using hidle

end Pool

/-! ## Runs of a pool -/

/-- Whether the command makes free textures older. -/
def PoolCommand.isTrim : PoolCommand → Bool
  | .trim _ => true
  | _ => false

theorem IdleTexture.toNat_older_le (t : IdleTexture) :
    t.older.frames.toNat ≤ t.frames.toNat + 1 := by
  rw [older, UInt32.toNat_add]
  exact Nat.mod_le _ _

namespace PoolSession

variable {s : PoolSession}

/-! ### How far ages are counted -/

theorem step_frames_le {n : Nat} (h : ∀ entry ∈ s.pool.entries, entry.frames.toNat ≤ n)
    (command : PoolCommand) :
    ∀ entry ∈ (s.step command).1.pool.entries,
      entry.frames.toNat ≤ n + if command.isTrim then 1 else 0 := by
  intro entry hentry
  cases command with
  | allocate key label name => exact h entry (Pool.mem_entries_allocate hentry)
  | copy source name =>
    simp only [step] at hentry
    split at hentry <;> exact h entry hentry
  | drop name => exact h entry hentry
  | reset =>
    rcases Pool.mem_entries_reset.1 hentry with ⟨t, -, -, rfl⟩ | hentry
    · exact Nat.zero_le _
    · exact h entry hentry
  | trim limit =>
    obtain ⟨younger, hyounger, rfl, -⟩ := Pool.mem_entries_trim.1 hentry
    exact younger.toNat_older_le.trans (Nat.succ_le_succ (h younger hyounger))

/-- No free texture is older than the number of times that the pool was trimmed. -/
theorem run_frames_le {n : Nat} (h : ∀ entry ∈ s.pool.entries, entry.frames.toNat ≤ n)
    (commands : List PoolCommand) :
    ∀ entry ∈ (s.run commands).pool.entries,
      entry.frames.toNat ≤ n + commands.countP PoolCommand.isTrim := by
  induction commands generalizing s n with
  | nil => exact h
  | cons command commands ih =>
    intro entry hentry
    have hle := ih (step_frames_le h command) entry hentry
    rw [List.countP_cons]
    omega

/-- Ages come to the end of their word only where a pool is trimmed as often as the word counts. -/
theorem run_canAge (ids : Identities) (commands : List PoolCommand)
    (h : commands.countP PoolCommand.isTrim + 1 < UInt32.size) :
    ∀ earlier, earlier <+: commands → (({ ids } : PoolSession).run earlier).pool.CanAge := by
  intro earlier hearlier entry hentry
  have hle := run_frames_le (s := { ids }) (n := 0) nofun earlier entry hentry
  have htrims := hearlier.sublist.countP_le (p := PoolCommand.isTrim)
  omega

/-! ### The order of every bucket -/

theorem step_oldestFirst (h : s.pool.OldestFirst) (hage : s.pool.CanAge)
    (command : PoolCommand) : (s.step command).1.pool.OldestFirst := by
  cases command with
  | allocate key label name => exact h.allocate s.ids key
  | copy source name =>
    simp only [step]
    split <;> exact h
  | drop name => exact h
  | reset => exact h.reset _
  | trim limit => exact h.trim hage limit

theorem run_oldestFirst (h : s.pool.OldestFirst) {commands : List PoolCommand}
    (hage : ∀ earlier, earlier <+: commands → (s.run earlier).pool.CanAge) :
    (s.run commands).pool.OldestFirst := by
  induction commands using List.reverseRecOn with
  | nil => exact h
  | append_singleton commands command ih =>
    have hbefore : commands <+: commands ++ [command] := List.prefix_append _ _
    have hrun := ih fun earlier hearlier => hage earlier (hearlier.trans hbefore)
    rw [run_append]
    exact step_oldestFirst hrun (hage commands hbefore) command

/-- After any run in which no age has come to the end of its word, the free textures of every
    bucket stand in the order of their ages, the oldest first. So a texture that is handed out
    again is one of the youngest of its key, and trimming destroys the first ones of each bucket
    and leaves no empty one. -/
theorem run_ages (ids : Identities) (commands : List PoolCommand)
    (hage : ∀ earlier, earlier <+: commands →
      ∀ entry ∈ (({ ids } : PoolSession).run earlier).pool.entries,
        entry.frames.toNat + 1 < UInt32.size) :
    let s := ({ ids } : PoolSession).run commands
    let pool := s.pool
    (∀ bucket ∈ pool.free, bucket.idle.Pairwise fun a b => b.frames ≤ a.frames) ∧
    (∀ key, let a := pool.allocate s.ids key
      a.created = false → ∃ entry ∈ pool.entries, entry.texture = a.texture ∧
        entry.texture.key = key ∧
        ∀ other ∈ pool.entries, other.texture.key = key → entry.frames ≤ other.frames) ∧
    ∀ limit, let trimmed := pool.trim limit
      (∀ key, ∃ removed kept, Bucket.find pool.free key = removed ++ kept ∧
        Bucket.find trimmed.free key = kept.map IdleTexture.older ∧
        (∀ t ∈ removed, limit ≤ t.frames) ∧ ∀ t ∈ kept, t.frames < limit) ∧
      ∀ bucket ∈ trimmed.free, bucket.idle ≠ [] := by
  intro s pool
  have hsound : s.Sound := foldl_sound (create_sound ids) commands
  have horder : pool.OldestFirst := run_oldestFirst (s := { ids }) nofun hage
  refine ⟨horder, fun key => ?_, fun limit => ⟨fun key => ?_, fun bucket => ?_⟩⟩
  · exact horder.allocate_youngest hsound.sound.keyed hsound.nodup s.ids key
  · exact horder.exists_trimmed (hage commands (List.prefix_refl _)) hsound.nodup limit key
  · exact Pool.idle_ne_nil_of_mem_trim

/-- What two textures have in common that are freed one frame after the other. -/
def sharedKey : TextureKey := ⟨⟨8, 8⟩, .rgba8Unorm, .target⟩

/-- The first is freed before the pool is trimmed, the second afterwards. -/
def freedInTurn : List PoolCommand :=
  [.allocate sharedKey "first" (some "first"), .allocate sharedKey "second" (some "second"),
    .drop "first", .reset, .trim 5, .drop "second", .reset]

theorem run_ages_of_freedInTurn :
    let pool := (({} : PoolSession).run freedInTurn).pool
    let first : IdleTexture := ⟨⟨1, ⟨8, 8⟩, .rgba8Unorm, .target⟩, 1⟩
    let second : IdleTexture := ⟨⟨2, ⟨8, 8⟩, .rgba8Unorm, .target⟩, 0⟩
    (∀ earlier, earlier <+: freedInTurn →
      ∀ entry ∈ (({} : PoolSession).run earlier).pool.entries,
        entry.frames.toNat + 1 < UInt32.size) ∧
    pool.free = [⟨sharedKey, [first, second]⟩] ∧
    (∃ entry ∈ pool.entries, entry.texture = second.texture ∧ entry.texture.key = sharedKey ∧
      ∀ other ∈ pool.entries, other.texture.key = sharedKey → entry.frames ≤ other.frames) ∧
    ∃ removed kept, [first, second] = removed ++ kept ∧
      [second.older] = kept.map IdleTexture.older ∧
      (∀ t ∈ removed, 1 ≤ t.frames) ∧ ∀ t ∈ kept, t.frames < 1 := by
  intro pool first second
  have hage := run_canAge {} freedInTurn (by decide)
  have hfree : pool.free = [⟨sharedKey, [first, second]⟩] := by decide
  obtain ⟨-, hyoungest, htrim⟩ := run_ages {} freedInTurn hage
  refine ⟨hage, hfree, hyoungest sharedKey (by decide), ?_⟩
  have hprefix := (htrim 1).1 sharedKey
  rwa [show Bucket.find pool.free sharedKey = [first, second] by decide,
    show Bucket.find (pool.trim 1).free sharedKey = [second.older] by decide] at hprefix

end PoolSession

end SeparableBlur.Gpu
