-- SUMMARY: The soundness of the texture pool: nothing is in it twice, nothing held is free, every bucket holds what its key says.
import Mathlib.Data.List.Nodup
import SeparableBlur.Gpu.Pool

/-!
# The soundness of the texture pool

`Pool.Sound` says of a pool, the counter of identities and the textures that are
held outside what makes it safe to hand out a free texture. Each operation on a
pool keeps it; so does holding a texture that was handed out and letting one go.

An operation moves textures between the active list and the buckets. What it does
to the textures as a whole is a permutation or a sublist, and soundness follows
from that.
-/

namespace SeparableBlur.Gpu

/-! ## The textures of a pool -/

/-- The texture after one more frame in which it was free. -/
def IdleTexture.older (t : IdleTexture) : IdleTexture := { t with frames := t.frames + 1 }

/-- The free textures of a bucket. -/
def Bucket.textures (bucket : Bucket) : List Texture := bucket.idle.map (·.texture)

/-- The free textures of all buckets, with the frames in which they were free. -/
def Pool.entries (p : Pool) : List IdleTexture := p.free.flatMap (·.idle)

/-- The free textures of all buckets. -/
def Pool.idle (p : Pool) : List Texture := p.free.flatMap Bucket.textures

/-- The textures that are handed out or free. -/
def Pool.textures (p : Pool) : List Texture := p.active ++ p.idle

theorem Bucket.flatMap_textures (buckets : List Bucket) :
    buckets.flatMap textures = (buckets.flatMap (·.idle)).map (·.texture) :=
  List.map_flatMap.symm

theorem Pool.idle_eq_map_entries (p : Pool) : p.idle = p.entries.map (·.texture) :=
  Bucket.flatMap_textures p.free

namespace Bucket

/-- Every texture of the buckets is what the key of its bucket says. -/
def Keyed (buckets : List Bucket) : Prop :=
  ∀ bucket ∈ buckets, ∀ t ∈ bucket.textures, t.key = bucket.key

theorem find_cons_of_ne {bucket : Bucket} {key : TextureKey} (h : bucket.key ≠ key)
    (buckets : List Bucket) : find (bucket :: buckets) key = find buckets key := by
  simp [find, h]

theorem find_cons_self (bucket : Bucket) (buckets : List Bucket) :
    find (bucket :: buckets) bucket.key = bucket.idle := by
  simp [find]

section

variable {buckets : List Bucket} {key : TextureKey}

/-- What holds of all buckets, and would of an empty one, holds of the bucket of the key. -/
theorem forall_find {P : Bucket → Prop} (h : ∀ bucket ∈ buckets, P bucket)
    (hempty : P ⟨key, []⟩) : P ⟨key, find buckets key⟩ := by
  induction buckets with
  | nil => exact hempty
  | cons bucket buckets ih =>
    obtain ⟨hbucket, hbuckets⟩ := List.forall_mem_cons.1 h
    rcases eq_or_ne bucket.key key with rfl | hne
    · rw [find_cons_self]
      exact hbucket
    · rw [find_cons_of_ne hne]
      exact ih hbuckets

/-- It holds of all buckets again if it holds of the one that is updated. -/
theorem forall_update {P : Bucket → Prop} {f : List IdleTexture → List IdleTexture}
    (h : ∀ bucket ∈ buckets, P bucket) (hf : P ⟨key, f (find buckets key)⟩) :
    ∀ bucket ∈ update key f buckets, P bucket := by
  induction buckets with
  | nil => exact List.forall_mem_cons.2 ⟨hf, h⟩
  | cons bucket buckets ih =>
    obtain ⟨hbucket, hbuckets⟩ := List.forall_mem_cons.1 h
    rcases eq_or_ne bucket.key key with rfl | hne
    · rw [find_cons_self] at hf
      rw [update, if_pos rfl]
      exact List.forall_mem_cons.2 ⟨hf, hbuckets⟩
    · rw [find_cons_of_ne hne] at hf
      rw [update, if_neg hne]
      exact List.forall_mem_cons.2 ⟨hbucket, ih hbuckets hf⟩

end

theorem find_keyed {buckets : List Bucket} (h : Keyed buckets) (key : TextureKey) :
    ∀ t ∈ (find buckets key).map (·.texture), t.key = key :=
  forall_find (P := fun bucket => ∀ t ∈ bucket.textures, t.key = bucket.key) h nofun

theorem update_keyed {buckets : List Bucket} (h : Keyed buckets) {key : TextureKey}
    {f : List IdleTexture → List IdleTexture}
    (hf : ∀ t ∈ (f (find buckets key)).map (·.texture), t.key = key) :
    Keyed (update key f buckets) :=
  forall_update (P := fun bucket => ∀ t ∈ bucket.textures, t.key = bucket.key) h hf

/-- What goes in and out of one bucket goes in and out of all of them. -/
theorem update_entries {buckets : List Bucket} {key : TextureKey}
    {f : List IdleTexture → List IdleTexture} (taken put : List IdleTexture)
    (hf : (taken ++ f (find buckets key)).Perm (put ++ find buckets key)) :
    (taken ++ (update key f buckets).flatMap (·.idle)).Perm (put ++ buckets.flatMap (·.idle)) := by
  induction buckets with
  | nil => simpa [update, find] using hf
  | cons bucket buckets ih =>
    rcases eq_or_ne bucket.key key with rfl | hne
    · rw [find_cons_self] at hf
      rw [update, if_pos rfl, List.flatMap_cons, List.flatMap_cons, ← List.append_assoc,
        ← List.append_assoc]
      exact hf.append_right _
    · rw [find_cons_of_ne hne] at hf
      rw [update, if_neg hne, List.flatMap_cons, List.flatMap_cons]
      exact (List.perm_append_comm_assoc ..).trans
        (((ih hf).append_left _).trans (List.perm_append_comm_assoc ..))

theorem release_entries (buckets : List Bucket) (t : Texture) :
    ((release buckets t).flatMap (·.idle)).Perm (⟨t, 0⟩ :: buckets.flatMap (·.idle)) :=
  update_entries [] [⟨t, 0⟩] (List.perm_append_singleton _ _)

theorem release_keyed {buckets : List Bucket} (h : Keyed buckets) (t : Texture) :
    Keyed (release buckets t) := by
  apply update_keyed h
  intro x hx
  rw [List.map_append, List.mem_append] at hx
  rcases hx with hx | hx
  · exact find_keyed h t.key x hx
  · simp only [List.map_cons, List.map_nil, List.mem_singleton] at hx
    rw [hx]

theorem foldl_release_entries (released : List Texture) (buckets : List Bucket) :
    ((released.foldl release buckets).flatMap (·.idle)).Perm
      (released.map (⟨·, 0⟩) ++ buckets.flatMap (·.idle)) := by
  induction released generalizing buckets with
  | nil => exact .refl _
  | cons t released ih =>
    have hmoved := (release_entries buckets t).append_left (released.map (⟨·, 0⟩))
    exact (ih (release buckets t)).trans (hmoved.trans List.perm_middle)

theorem foldl_release_textures (released : List Texture) (buckets : List Bucket) :
    ((released.foldl release buckets).flatMap textures).Perm
      (released ++ buckets.flatMap textures) := by
  have hperm := (foldl_release_entries released buckets).map (·.texture)
  rw [List.map_append, List.map_map] at hperm
  simpa only [flatMap_textures, Function.comp_def, List.map_id'] using hperm

theorem foldl_release_keyed (released : List Texture) {buckets : List Bucket}
    (h : Keyed buckets) : Keyed (released.foldl release buckets) := by
  induction released generalizing buckets with
  | nil => exact h
  | cons t released ih => exact ih (release_keyed h t)

/-- Growing older and being dropped when empty do to all buckets what they do to each. -/
theorem trim_entries (limit : UInt32) (buckets : List Bucket) :
    ((buckets.map (age limit)).filter (!·.idle.isEmpty)).flatMap (·.idle) =
      ((buckets.flatMap (·.idle)).map .older).filter (·.frames ≤ limit) := by
  induction buckets with
  | nil => rfl
  | cons bucket buckets ih =>
    have hage : (bucket.age limit).idle = (bucket.idle.map .older).filter (·.frames ≤ limit) := rfl
    rw [List.map_cons, List.filter_cons, List.flatMap_cons, List.map_append, List.filter_append,
      ← hage, ← ih]
    split
    · rfl
    · rename_i hempty
      have hnil : (bucket.age limit).idle = [] := by simpa using hempty
      rw [hnil, List.nil_append]

theorem older_textures (idle : List IdleTexture) (limit : UInt32) :
    (((idle.map IdleTexture.older).filter (·.frames ≤ limit)).map (·.texture)).Sublist
      (idle.map (·.texture)) := by
  have hmap : (idle.map IdleTexture.older).map (·.texture) = idle.map (·.texture) := by
    rw [List.map_map]
    rfl
  rw [← hmap]
  exact List.filter_sublist.map _

/-- So they only take textures away. -/
theorem trim_textures (limit : UInt32) (buckets : List Bucket) :
    (((buckets.map (age limit)).filter (!·.idle.isEmpty)).flatMap textures).Sublist
      (buckets.flatMap textures) := by
  rw [flatMap_textures, flatMap_textures, trim_entries]
  exact older_textures _ limit

theorem trim_keyed {buckets : List Bucket} (h : Keyed buckets) (limit : UInt32) :
    Keyed ((buckets.map (age limit)).filter (!·.idle.isEmpty)) := by
  intro bucket hbucket t ht
  obtain ⟨older, holder, rfl⟩ := List.mem_map.1 (List.mem_filter.1 hbucket).1
  exact h older holder t ((older_textures older.idle limit).subset ht)

end Bucket

/-! ## Soundness -/

namespace Pool

/-- What makes it safe to hand out a free texture while those in `outside` are held. -/
structure Sound (p : Pool) (ids : Identities) (outside : List Texture) : Prop where
  /-- No identity occurs twice. -/
  nodup : (p.textures.map (·.id)).Nodup
  /-- Every identity in the pool has been drawn. -/
  drawn : ∀ t ∈ p.textures, t.id < ids.next
  outside_drawn : ∀ t ∈ outside, t.id < ids.next
  /-- Nothing free is held. -/
  unheld : ∀ t ∈ outside, ∀ u ∈ p.idle, u.id ≠ t.id
  keyed : Bucket.Keyed p.free

/-- A texture is handed out in one of two ways: it was free, or it is new. -/
theorem allocate_entries (p : Pool) (ids : Identities) (key : TextureKey) :
    (∃ entry, ∃ free,
      p.allocate ids key = ⟨entry.texture, false, ⟨p.active ++ [entry.texture], free⟩, ids⟩ ∧
      (entry :: free.flatMap (·.idle)).Perm p.entries ∧
      (Bucket.Keyed p.free → entry.texture.key = key ∧ Bucket.Keyed free)) ∨
    (∃ t, t.id = ids.next ∧ t.key = key ∧
      p.allocate ids key = ⟨t, true, ⟨p.active ++ [t], p.free⟩, ⟨ids.next + 1⟩⟩) := by
  cases hlast : (Bucket.find p.free key).getLast? with
  | none =>
    right
    refine ⟨(Texture.create key ids).1, rfl, rfl, ?_⟩
    simp only [allocate, hlast]
    rfl
  | some entry =>
    left
    obtain ⟨rest, hfind⟩ := List.getLast?_eq_some_iff.1 hlast
    refine ⟨entry, Bucket.update key List.dropLast p.free, ?_, ?_, ?_⟩
    · simp only [allocate, hlast]
    · apply Bucket.update_entries [entry] []
      rw [hfind, List.dropLast_concat]
      exact (List.perm_append_singleton _ _).symm
    · intro hkeyed
      have hall := Bucket.find_keyed hkeyed key
      rw [hfind, List.map_append, List.forall_mem_append] at hall
      refine ⟨hall.2 _ (by simp), Bucket.update_keyed hkeyed ?_⟩
      rw [hfind, List.dropLast_concat]
      exact hall.1

theorem allocate_textures (p : Pool) (ids : Identities) (key : TextureKey) :
    (∃ t, ∃ free, p.allocate ids key = ⟨t, false, ⟨p.active ++ [t], free⟩, ids⟩ ∧
      (t :: free.flatMap Bucket.textures).Perm p.idle ∧
      (Bucket.Keyed p.free → t.key = key ∧ Bucket.Keyed free)) ∨
    (∃ t, t.id = ids.next ∧ t.key = key ∧
      p.allocate ids key = ⟨t, true, ⟨p.active ++ [t], p.free⟩, ⟨ids.next + 1⟩⟩) := by
  refine (p.allocate_entries ids key).imp_left ?_
  rintro ⟨entry, free, heq, hperm, hkeyed⟩
  refine ⟨entry.texture, free, heq, ?_, hkeyed⟩
  rw [Bucket.flatMap_textures, idle_eq_map_entries]
  exact hperm.map (·.texture)

/-- Handing out a texture adds nothing else to the pool. -/
theorem mem_textures_allocate {p : Pool} {ids : Identities} {key : TextureKey} {u : Texture}
    (hu : u ∈ (p.allocate ids key).pool.textures) :
    u ∈ p.textures ∨ u = (p.allocate ids key).texture := by
  rcases p.allocate_textures ids key with ⟨t, free, heq, hperm, -⟩ | ⟨t, -, -, heq⟩
  · rw [heq] at hu ⊢
    have hmem : u ∈ p.active ++ (t :: free.flatMap Bucket.textures) := by
      simpa [textures, idle] using hu
    exact .inl ((hperm.append_left p.active).mem_iff.1 hmem)
  · rw [heq] at hu ⊢
    have hperm : (p.active ++ [t] ++ p.idle).Perm (p.textures ++ [t]) := by
      rw [textures, List.append_assoc, List.append_assoc]
      exact List.perm_append_comm.append_left p.active
    rcases List.mem_append.1 (hperm.mem_iff.1 hu) with hu | hu
    · exact .inl hu
    · exact .inr (List.mem_singleton.1 hu)

theorem active_allocate (p : Pool) (ids : Identities) (key : TextureKey) :
    (p.allocate ids key).pool.active = p.active ++ [(p.allocate ids key).texture] := by
  rcases p.allocate_textures ids key with ⟨_, _, heq, -⟩ | ⟨_, -, -, heq⟩ <;> rw [heq]

theorem activeCount_allocate (p : Pool) (ids : Identities) (key : TextureKey) :
    (p.allocate ids key).pool.activeCount = p.activeCount + 1 := by
  rw [activeCount, active_allocate, List.length_append, List.length_singleton]
  rfl

/-- Freeing textures only moves them. -/
theorem reset_textures (p : Pool) (held : Texture → Bool) :
    (p.reset held).textures.Perm p.textures := by
  have hmoved := (Bucket.foldl_release_textures (p.active.filter (!held ·)) p.free).append_left
    (p.active.filter held)
  rw [← List.append_assoc] at hmoved
  exact hmoved.trans ((List.filter_append_perm held p.active).append_right _)

theorem trim_idle (p : Pool) (limit : UInt32) : (p.trim limit).idle.Sublist p.idle :=
  Bucket.trim_textures limit p.free

theorem trim_textures (p : Pool) (limit : UInt32) :
    (p.trim limit).textures.Sublist p.textures :=
  (p.trim_idle limit).append_left p.active

namespace Sound

variable {p : Pool} {ids : Identities} {outside : List Texture}

/-- Nothing is handed out and free at once. -/
theorem not_mem_idle (h : p.Sound ids outside) {t : Texture} (ht : t ∈ p.active) : t ∉ p.idle := by
  intro hidle
  have hnodup := h.nodup
  rw [textures, List.map_append] at hnodup
  exact (List.nodup_append.1 hnodup).2.2 _ (List.mem_map_of_mem ht) _ (List.mem_map_of_mem hidle) rfl

/-- Letting textures go and drawing more identities leave a pool sound. -/
theorem mono (h : p.Sound ids outside) {ids' : Identities} {outside' : List Texture}
    (hids : ids.next ≤ ids'.next) (houtside : ∀ t ∈ outside', t ∈ outside) :
    p.Sound ids' outside' where
  nodup := h.nodup
  drawn t ht := Nat.lt_of_lt_of_le (h.drawn t ht) hids
  outside_drawn t ht := Nat.lt_of_lt_of_le (h.outside_drawn t (houtside t ht)) hids
  unheld t ht := h.unheld t (houtside t ht)
  keyed := h.keyed

/-- A texture with an identity that was just drawn may be held. -/
theorem cons_new (h : p.Sound ids outside) {t : Texture} (ht : t.id = ids.next) :
    p.Sound ⟨ids.next + 1⟩ (t :: outside) where
  nodup := h.nodup
  drawn u hu := Nat.lt_succ_of_lt (h.drawn u hu)
  outside_drawn := List.forall_mem_cons.2
    ⟨ht ▸ Nat.lt_succ_self _, fun u hu => Nat.lt_succ_of_lt (h.outside_drawn u hu)⟩
  unheld := List.forall_mem_cons.2
    ⟨fun u hu => ht ▸ Nat.ne_of_lt (h.drawn u (List.mem_append_right _ hu)), h.unheld⟩
  keyed := h.keyed

/-- A new texture may be put on the active list. -/
private theorem activate_new (h : p.Sound ids outside) {t : Texture} (ht : t.id = ids.next) :
    (⟨p.active ++ [t], p.free⟩ : Pool).Sound ⟨ids.next + 1⟩ (t :: outside) := by
  have hnew := h.cons_new ht
  have hperm : (⟨p.active ++ [t], p.free⟩ : Pool).textures.Perm (t :: p.textures) := by
    rw [textures, List.append_assoc]
    exact List.perm_middle
  have hfresh : t.id ∉ p.textures.map (·.id) := by
    rw [List.mem_map]
    rintro ⟨u, hu, hid⟩
    exact absurd (hid.trans ht) (Nat.ne_of_lt (h.drawn u hu))
  refine ⟨?_, fun u hu => ?_, hnew.outside_drawn, hnew.unheld, h.keyed⟩
  · exact (hperm.map _).nodup_iff.2 (List.nodup_cons.2 ⟨hfresh, h.nodup⟩)
  · rcases List.mem_cons.1 (hperm.mem_iff.1 hu) with rfl | hu
    · exact ht ▸ Nat.lt_succ_self _
    · exact Nat.lt_succ_of_lt (h.drawn u hu)

/-- A free texture may be taken out of its bucket and put on the active list. -/
private theorem activate_idle (h : p.Sound ids outside) {t : Texture} {free : List Bucket}
    (hperm : (t :: free.flatMap Bucket.textures).Perm p.idle) (hfree : Bucket.Keyed free) :
    (⟨p.active ++ [t], free⟩ : Pool).Sound ids (t :: outside) := by
  have hmem : ∀ u ∈ t :: free.flatMap Bucket.textures, u ∈ p.idle :=
    fun u hu => hperm.mem_iff.1 hu
  have hall : (⟨p.active ++ [t], free⟩ : Pool).textures.Perm p.textures := by
    rw [textures, List.append_assoc]
    exact hperm.append_left _
  have hidle : (p.idle.map (·.id)).Nodup := by
    have := h.nodup
    rw [textures, List.map_append] at this
    exact (List.nodup_append.1 this).2.1
  have hnodup := (hperm.map (·.id)).nodup_iff.2 hidle
  refine ⟨?_, fun u hu => h.drawn u (hall.mem_iff.1 hu), ?_, ?_, hfree⟩
  · exact (hall.map _).nodup_iff.2 h.nodup
  · have ht := h.drawn t (List.mem_append_right _ (hmem t List.mem_cons_self))
    exact List.forall_mem_cons.2 ⟨ht, h.outside_drawn⟩
  · refine List.forall_mem_cons.2 ⟨fun u hu hid => ?_, fun v hv u hu => ?_⟩
    · exact (List.nodup_cons.1 hnodup).1 (List.mem_map.2 ⟨u, hu, hid⟩)
    · exact h.unheld v hv u (hmem u (List.mem_cons_of_mem _ hu))

/-- A texture that is handed out may be held, is like it was asked for, and is none of those that
    were held before. -/
theorem allocate (h : p.Sound ids outside) (key : TextureKey) :
    (p.allocate ids key).pool.Sound (p.allocate ids key).ids
        ((p.allocate ids key).texture :: outside) ∧
      (p.allocate ids key).texture.key = key ∧
      ∀ t ∈ outside, t.id ≠ (p.allocate ids key).texture.id := by
  rcases p.allocate_textures ids key with ⟨t, free, heq, hperm, hkeyed⟩ | ⟨t, hid, htkey, heq⟩
  · obtain ⟨htkey, hfree⟩ := hkeyed h.keyed
    rw [heq]
    refine ⟨h.activate_idle hperm hfree, htkey, fun u hu => ?_⟩
    exact (h.unheld u hu t (hperm.mem_iff.1 List.mem_cons_self)).symm
  · rw [heq]
    refine ⟨h.activate_new hid, htkey, fun u hu => ?_⟩
    rw [hid]
    exact Nat.ne_of_lt (h.outside_drawn u hu)

/-- Textures that are not held may be freed. -/
theorem reset (h : p.Sound ids outside) {held : Texture → Bool}
    (hheld : ∀ t ∈ outside, ∀ u, held u = false → u.id ≠ t.id) :
    (p.reset held).Sound ids outside := by
  have hidle := Bucket.foldl_release_textures (p.active.filter (!held ·)) p.free
  have hall := p.reset_textures held
  refine ⟨(hall.map _).nodup_iff.2 h.nodup, fun u hu => h.drawn u (hall.mem_iff.1 hu),
    h.outside_drawn, fun t ht u hu => ?_, Bucket.foldl_release_keyed _ h.keyed⟩
  rcases List.mem_append.1 (hidle.mem_iff.1 hu) with hu | hu
  · rw [List.mem_filter] at hu
    exact hheld t ht u (by simpa using hu.2)
  · exact h.unheld t ht u hu

/-- Free textures may be destroyed. -/
theorem trim (h : p.Sound ids outside) (limit : UInt32) : (p.trim limit).Sound ids outside := by
  have hall := p.trim_textures limit
  refine ⟨h.nodup.sublist (hall.map _), fun u hu => h.drawn u (hall.subset hu), h.outside_drawn,
    fun t ht u hu => h.unheld t ht u ((p.trim_idle limit).subset hu),
    Bucket.trim_keyed h.keyed limit⟩

end Sound

end Pool

end SeparableBlur.Gpu
