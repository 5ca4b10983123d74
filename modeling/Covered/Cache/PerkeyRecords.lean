import Covered.Cache.KeyLevelMetadata
import Covered.Lib.LinkedList

/-!
# Records in LRU order and their groups

What the containers of key-level records have in common: an LRU list of the records with the bytes
of its keys, and the groups that the keys belong to. `PerkeyRecords` has them as the source does,
with iterators into the list; its functions abort where the source asserts.

`LruRecords` is what they stand for: the records in LRU order, with distinct keys whose bytes can be
counted, and the group of the next key. The size of a group is not stored, it is the number of
records that carry the group. `PerkeyRecords.Represents` relates the two, and each step on the list
is a step on the records.
-/

set_option autoImplicit false

namespace Covered.Cache

open Common Lib Lib.Checked KeyedList UnorderedMap LinkedList List KeyLevelMetadata

/-! ## The list and the groups -/

/-- The LRU list with the bytes of its keys, and the groups. -/
structure PerkeyRecords (T : Type) where
  perkeyMetadataListKeySize : Nat := 0
  perkeyMetadataList : LinkedList (Key × T) := .empty
  curGroupId : Nat := 0
  curGroupKeycnt : Nat := 0
  pergroupMetadataMap : UnorderedMap Nat GroupLevelMetadata := ∅

namespace PerkeyRecords

variable {T : Type}

/-- Count a new key in its group; returns the group. -/
def addPergroupMetadata (c : PerkeyRecords T) : PerkeyRecords T × Nat :=
  let (groupId, keycnt) := assignGroup c.curGroupId c.curGroupKeycnt
  let group := (c.pergroupMetadataMap.lookup groupId).getD {}
  ({ c with
    curGroupId := groupId
    curGroupKeycnt := keycnt
    pergroupMetadataMap := c.pergroupMetadataMap.insert groupId group.updateForNewlyGrouped },
    groupId)

/-- Take a key out of its group, and an empty group out of the map. -/
def removePergroupMetadata (c : PerkeyRecords T) (groupId : Nat) : Option (PerkeyRecords T) := do
  let group ← c.pergroupMetadataMap.lookup groupId
  let (group', isGroupEmpty) := group.updateForDegrouped
  return { c with
    pergroupMetadataMap :=
      if isGroupEmpty then c.pergroupMetadataMap.erase groupId
      else c.pergroupMetadataMap.insert groupId group' }

/-- Replace the record at a place. -/
def updatePerkeyMetadata (c : PerkeyRecords T) (perkeyMetadataListIter : Nat)
    (update : T → Option T) : Option (PerkeyRecords T × T) := do
  let node ← c.perkeyMetadataList.get perkeyMetadataListIter
  let metadata ← update node.2
  return ({ c with
    perkeyMetadataList :=
      c.perkeyMetadataList.set perkeyMetadataListIter (node.1, metadata) }, metadata)

/-- Move the record at a place to the head of the LRU list. -/
def moveToFront (c : PerkeyRecords T) (perkeyMetadataListIter : Nat) : PerkeyRecords T :=
  { c with perkeyMetadataList := c.perkeyMetadataList.moveToFront perkeyMetadataListIter }

/-- Take the record at a place out of the LRU list. -/
def removePerkeyMetadata (c : PerkeyRecords T) (perkeyMetadataListIter : Nat) :
    Option (PerkeyRecords T) := do
  let node ← c.perkeyMetadataList.get perkeyMetadataListIter
  return { c with
    perkeyMetadataList := c.perkeyMetadataList.erase perkeyMetadataListIter
    perkeyMetadataListKeySize := uint64Minus c.perkeyMetadataListKeySize node.1.getKeyLength }

/-- A record for a new key at the head of the LRU list; returns its place. -/
def addPerkeyMetadata [KeyLevelMetadata T] (c : PerkeyRecords T) (key : Key) (value : Value)
    (groupId : Nat) (isGlobalCached isNeighborCached : Bool)
    (addedLocalFrequency addedRedirectedFrequency : Nat) : Option (PerkeyRecords T × Nat) := do
  let metadata ← KeyLevelMetadata.updateNoValueDynamicMetadata
    (KeyLevelMetadata.create groupId isNeighborCached : T) false isGlobalCached addedLocalFrequency
    addedRedirectedFrequency
  let metadata ← KeyLevelMetadata.updateValueDynamicMetadata metadata (objectSize key value) 0
  let keySize ← uint64Add c.perkeyMetadataListKeySize key.getKeyLength
  return ({ c with
    perkeyMetadataList := c.perkeyMetadataList.pushFront (key, metadata)
    perkeyMetadataListKeySize := keySize }, c.perkeyMetadataList.next)

/-- A new key with its group, its record and its popularity; returns its place and its record. -/
def addRecord [KeyLevelMetadata T] (edge : EdgeContext) (c : PerkeyRecords T) (key : Key)
    (value : Value) (isGlobalCached isNeighborCached : Bool)
    (addedLocalFrequency addedRedirectedFrequency : Nat) : Option (PerkeyRecords T × Nat × T) := do
  let (c, groupId) := c.addPergroupMetadata
  let (c, perkeyMetadataListIter) ← c.addPerkeyMetadata key value groupId isGlobalCached
    isNeighborCached addedLocalFrequency addedRedirectedFrequency
  let (c, metadata) ← c.updatePerkeyMetadata perkeyMetadataListIter
    (KeyLevelMetadata.calculateAndUpdatePopularity edge)
  return (c, perkeyMetadataListIter, metadata)

end PerkeyRecords

/-! ## The records -/

/-- The bytes of keys. -/
def bytesOfKeys (keys : List Key) : Nat := (keys.map Key.getKeyLength).sum

theorem bytesOfKeys_cons (key : Key) (keys : List Key) :
    bytesOfKeys (key :: keys) = key.getKeyLength + bytesOfKeys keys := by
  rw [bytesOfKeys, map_cons, sum_cons, bytesOfKeys]

theorem bytesOfKeys_append (keys keys' : List Key) :
    bytesOfKeys (keys ++ keys') = bytesOfKeys keys + bytesOfKeys keys' := by
  rw [bytesOfKeys, map_append, sum_append, bytesOfKeys, bytesOfKeys]

theorem bytesOfKeys_perm {keys keys' : List Key} (h : keys.Perm keys') :
    bytesOfKeys keys = bytesOfKeys keys' := (h.map Key.getKeyLength).sum_nat

/-- Records in LRU order, with distinct keys, and the group of the next key. -/
structure LruRecords (T : Type) where
  lru : List (Key × T) := []
  curGroupId : Nat := 0
  curGroupKeycnt : Nat := 0
  nodup : KeyedList.NodupKeys Prod.fst lru := by exact List.nodup_nil
  bounded : bytesOfKeys (lru.map Prod.fst) < uint64Limit := by exact Nat.two_pow_pos 64

namespace LruRecords

variable {T : Type}

def empty : LruRecords T := {}

/-- The keys, the one used last first. -/
def keys (w : LruRecords T) : List Key := w.lru.map Prod.fst

/-- The record of a key. -/
def record (w : LruRecords T) (key : Key) : Option T :=
  (KeyedList.find Prod.fst key w.lru).map Prod.snd

variable {w : LruRecords T} {key : Key} {t t' : T}

theorem record_eq_none_iff : w.record key = none ↔ key ∉ w.keys := by
  rw [record, Option.map_eq_none_iff, find_eq_none_iff, keys]

theorem record_eq_some_iff : w.record key = some t ↔ (key, t) ∈ w.lru := by
  rw [record, Option.map_eq_some_iff]
  constructor
  · rintro ⟨pair, hfind, rfl⟩
    obtain ⟨hmem, rfl⟩ := (find_eq_some_iff w.nodup).1 hfind
    exact hmem
  · intro hmem
    exact ⟨(key, t), (find_eq_some_iff w.nodup).2 ⟨hmem, rfl⟩, rfl⟩

theorem find_of_record (h : w.record key = some t) :
    find Prod.fst key w.lru = some (key, t) :=
  (find_eq_some_iff w.nodup).2 ⟨record_eq_some_iff.1 h, rfl⟩

theorem mem_keys_of_record (h : w.record key = some t) : key ∈ w.keys :=
  mem_map_of_mem (f := Prod.fst) (record_eq_some_iff.1 h)

theorem exists_record (h : key ∈ w.keys) : ∃ t, w.record key = some t :=
  Option.ne_none_iff_exists'.1 fun hnone => record_eq_none_iff.1 hnone h

/-! ## Steps -/

/-- Replace the record of a key. -/
def setRecord (w : LruRecords T) (key : Key) (t : T) : LruRecords T where
  lru := KeyedList.replace Prod.fst key (key, t) w.lru
  curGroupId := w.curGroupId
  curGroupKeycnt := w.curGroupKeycnt
  nodup := w.nodup.replace rfl
  bounded := by
    rw [KeyedList.map_replace (f := Prod.fst) (b := (key, t)) rfl]
    exact w.bounded

/-- The records with the one of a key in front. -/
def recordsFrom (w : LruRecords T) (key : Key) : List (Key × T) :=
  (KeyedList.find Prod.fst key w.lru).toList ++ KeyedList.erase Prod.fst key w.lru

theorem perm_recordsFrom (w : LruRecords T) (key : Key) : (w.recordsFrom key).Perm w.lru := by
  rw [recordsFrom]
  cases h : find Prod.fst key w.lru with
  | none => rw [Option.toList_none, nil_append, erase_of_find_none h]
  | some pair => exact (perm_cons_erase h).symm

/-- Move a key to the head of the LRU list. -/
def moveToFront (w : LruRecords T) (key : Key) : LruRecords T where
  lru := w.recordsFrom key
  curGroupId := w.curGroupId
  curGroupKeycnt := w.curGroupKeycnt
  nodup := w.nodup.perm (w.perm_recordsFrom key).symm
  bounded := by
    rw [bytesOfKeys_perm ((w.perm_recordsFrom key).map Prod.fst)]
    exact w.bounded

/-- A new key at the head of the LRU list, in the group assigned next. -/
def insertKey (w : LruRecords T) (key : Key) (t : T) (hnew : key ∉ w.keys)
    (hbytes : bytesOfKeys w.keys + key.getKeyLength < uint64Limit) : LruRecords T where
  lru := (key, t) :: w.lru
  curGroupId := (assignGroup w.curGroupId w.curGroupKeycnt).1
  curGroupKeycnt := (assignGroup w.curGroupId w.curGroupKeycnt).2
  nodup := List.nodup_cons.2 ⟨hnew, w.nodup⟩
  bounded := by
    rw [List.map_cons, bytesOfKeys_cons, Nat.add_comm]
    exact hbytes

theorem bytesOfKeys_erase (h : w.record key = some t) :
    bytesOfKeys ((erase Prod.fst key w.lru).map Prod.fst) + key.getKeyLength =
      bytesOfKeys w.keys := by
  rw [keys, bytesOfKeys_perm ((perm_cons_erase (find_of_record h)).map Prod.fst),
    map_cons, bytesOfKeys_cons, Nat.add_comm]

/-- The records without the one of a key. -/
def removeKey (w : LruRecords T) (key : Key) : LruRecords T where
  lru := KeyedList.erase Prod.fst key w.lru
  curGroupId := w.curGroupId
  curGroupKeycnt := w.curGroupKeycnt
  nodup := w.nodup.sublist KeyedList.erase_sublist
  bounded := by
    cases h : w.record key with
    | none =>
      rw [KeyedList.erase_of_find_none (Option.map_eq_none_iff.1 h)]
      exact w.bounded
    | some t => exact Nat.lt_of_le_of_lt (Nat.le_of_add_right_le (bytesOfKeys_erase h).le) w.bounded

theorem keys_setRecord : (w.setRecord key t).keys = w.keys :=
  map_replace (f := Prod.fst) (b := (key, t)) rfl

theorem lru_moveToFront (h : w.record key = some t) :
    (w.moveToFront key).lru = (key, t) :: erase Prod.fst key w.lru := by
  show w.recordsFrom key = _
  rw [recordsFrom, find_of_record h, Option.toList_some, singleton_append]

theorem perm_moveToFront (w : LruRecords T) (key : Key) : (w.moveToFront key).keys.Perm w.keys :=
  (w.perm_recordsFrom key).map Prod.fst

theorem keys_moveToFront (h : w.record key = some t) :
    (w.moveToFront key).keys = key :: w.keys.filter fun k => decide (k ≠ key) := by
  rw [keys, lru_moveToFront h, map_cons, map_erase w.nodup, keys]

theorem keys_removeKey : (w.removeKey key).keys = w.keys.filter fun k => decide (k ≠ key) :=
  map_erase w.nodup

theorem record_setRecord (h : w.record key = some t) :
    (w.setRecord key t').record key = some t' := by
  have hreplaced : find Prod.fst key (replace Prod.fst key (key, t') w.lru) =
      if key = key then (find Prod.fst key w.lru).map fun _ => (key, t')
      else find Prod.fst key w.lru := find_replace rfl
  rw [if_pos rfl, find_of_record h, Option.map_some] at hreplaced
  exact congrArg (Option.map Prod.snd) hreplaced

theorem record_moveToFront (h : w.record key = some t) :
    (w.moveToFront key).record key = some t :=
  record_eq_some_iff.2 ((w.perm_recordsFrom key).mem_iff.2 (record_eq_some_iff.1 h))

theorem bytesOfKeys_removeKey (h : w.record key = some t) :
    bytesOfKeys (w.removeKey key).keys = uint64Minus (bytesOfKeys w.keys) key.getKeyLength := by
  have hbytes := bytesOfKeys_erase h
  have hle : key.getKeyLength ≤ bytesOfKeys w.keys := Nat.le_of_add_left_le hbytes.le
  exact (Nat.eq_sub_of_add_eq hbytes).trans (uint64Minus_eq w.bounded hle).symm

theorem length_removeKey (h : w.record key = some t) :
    (w.removeKey key).lru.length + 1 = w.lru.length :=
  (perm_cons_erase (find_of_record h)).length_eq.symm

/-! ## Groups -/

section Groups

variable [KeyLevelMetadata T]

/-- The groups of the keys, with repetitions. -/
def groupIds (w : LruRecords T) : List Nat :=
  w.lru.map fun pair => KeyLevelMetadata.getGroupId pair.2

/-- The group that the container stores: none without keys. -/
def group (w : LruRecords T) (groupId : Nat) : Option GroupLevelMetadata :=
  if w.groupIds.count groupId = 0 then none else some ⟨w.groupIds.count groupId⟩

theorem groupIds_setRecord (h : w.record key = some t)
    (hgroup : getGroupId t' = getGroupId t) :
    (w.setRecord key t').groupIds = w.groupIds :=
  map_replace_of_find (b := (key, t'))
    (g := fun pair : Key × T => getGroupId pair.2) (find_of_record h) hgroup

theorem groupIds_moveToFront (w : LruRecords T) (key : Key) :
    (w.moveToFront key).groupIds.Perm w.groupIds :=
  (w.perm_recordsFrom key).map fun pair : Key × T => getGroupId pair.2

theorem groupIds_insertKey (hnew : key ∉ w.keys)
    (hbytes : bytesOfKeys w.keys + key.getKeyLength < uint64Limit) :
    (w.insertKey key t hnew hbytes).groupIds = getGroupId t :: w.groupIds := rfl

theorem perm_groupIds_removeKey (h : w.record key = some t) :
    w.groupIds.Perm (getGroupId t :: (w.removeKey key).groupIds) :=
  (perm_cons_erase (find_of_record h)).map
    fun pair : Key × T => getGroupId pair.2

theorem count_groupIds_pos (h : w.record key = some t) :
    0 < w.groupIds.count (getGroupId t) :=
  count_pos_iff.2 (mem_map.2 ⟨(key, t), record_eq_some_iff.1 h, rfl⟩)

theorem isSome_group_iff {groupId : Nat} :
    (w.group groupId).isSome = true ↔ groupId ∈ w.groupIds := by
  rw [group, ← count_pos_iff, Nat.pos_iff_ne_zero]
  split
  · next hzero => exact iff_of_false Bool.false_ne_true fun hne => hne hzero
  · next hne => exact iff_of_true rfl hne

theorem group_congr {w' : LruRecords T} (h : w'.groupIds.Perm w.groupIds) (groupId : Nat) :
    w'.group groupId = w.group groupId := by
  rw [group, group, h.count_eq]

/-- The record of a new key in a group. -/
def newRecord (edge : EdgeContext) (groupId : Nat) (key : Key) (value : Value)
    (isGlobalCached isNeighborCached : Bool)
    (addedLocalFrequency addedRedirectedFrequency : Nat) : Option T := do
  let t ← KeyLevelMetadata.updateNoValueDynamicMetadata
    (KeyLevelMetadata.create groupId isNeighborCached : T) false isGlobalCached addedLocalFrequency
    addedRedirectedFrequency
  let t ← KeyLevelMetadata.updateValueDynamicMetadata t (objectSize key value) 0
  KeyLevelMetadata.calculateAndUpdatePopularity edge t

theorem newRecord_spec {edge : EdgeContext} {groupId : Nat} {value : Value}
    {isGlobalCached isNeighborCached : Bool} {added addedRedirected : Nat}
    (h : newRecord edge groupId key value isGlobalCached isNeighborCached added addedRedirected =
      some t) :
    getGroupId t = groupId ∧
      getObjectSize t = objectSize key value := by
  simp only [newRecord, bind_eq_some_iff] at h
  obtain ⟨created, hcreated, sized, hsized, hpop⟩ := h
  have hgroup := (noValue_keeps hcreated).1
  rw [getGroupId_create] at hgroup
  have hvalue := value_spec hsized
  have hkeeps := popularity_keeps hpop
  exact ⟨hkeeps.1.trans (hvalue.1.trans hgroup), hkeeps.2.trans hvalue.2⟩

end Groups

end LruRecords

/-! ## The list and the groups represent the records -/

/-- The list has the records, the groups count them. -/
structure PerkeyRecords.Represents {T : Type} [KeyLevelMetadata T] (c : PerkeyRecords T)
    (w : LruRecords T) : Prop where
  list : c.perkeyMetadataList.toList = w.lru
  listBytes : c.perkeyMetadataListKeySize = bytesOfKeys w.keys
  groupId : c.curGroupId = w.curGroupId
  groupKeycnt : c.curGroupKeycnt = w.curGroupKeycnt
  group : ∀ groupId, c.pergroupMetadataMap.lookup groupId = w.group groupId

namespace PerkeyRecords

theorem updatePerkeyMetadata_eq {T : Type} {c : PerkeyRecords T} {key : Key} {t : T} {it : Nat}
    (hget : c.perkeyMetadataList.get it = some (key, t)) (update : T → Option T) :
    c.updatePerkeyMetadata it update = (update t).map fun t' =>
      ({ c with perkeyMetadataList := c.perkeyMetadataList.set it (key, t') }, t') := by
  simp only [updatePerkeyMetadata, hget, some_bind]
  cases update t with
  | none => rfl
  | some t' => rfl

namespace Represents

variable {T : Type} [KeyLevelMetadata T] {c : PerkeyRecords T} {w : LruRecords T} {key : Key}
  {t t' : T} {it : Nat}

theorem empty : Represents ({} : PerkeyRecords T) LruRecords.empty :=
    ⟨rfl, rfl, rfl, rfl, fun _ => rfl⟩

section Represents

variable (h : Represents c w)
include h

theorem nodup_list : KeyedList.NodupKeys Prod.fst c.perkeyMetadataList.toList := h.list ▸ w.nodup

theorem record_of_get (hget : c.perkeyMetadataList.get it = some (key, t)) :
    w.record key = some t :=
  LruRecords.record_eq_some_iff.2 (h.list ▸ mem_toList_iff.2 ⟨it, hget⟩)

/-- The group of a record is stored. -/
theorem exists_group (hr : w.record key = some t) :
    ∃ group : GroupLevelMetadata, c.pergroupMetadataMap.lookup (getGroupId t) =
      some group ∧ group.objectCnt > 0 := by
  have hpos := LruRecords.count_groupIds_pos hr
  exact ⟨⟨_⟩, (h.group _).trans (if_neg (Nat.ne_of_gt hpos)), hpos⟩

/-- A record replaced in its place. -/
theorem setRecord (hget : c.perkeyMetadataList.get it = some (key, t))
    (hgroup : getGroupId t' = getGroupId t) :
    Represents { c with perkeyMetadataList := c.perkeyMetadataList.set it (key, t') }
      (w.setRecord key t') where
  list := (toList_set h.nodup_list hget (key, t')).trans (by rw [h.list]; rfl)
  listBytes := by rw [LruRecords.keys_setRecord]; exact h.listBytes
  groupId := h.groupId
  groupKeycnt := h.groupKeycnt
  group groupId := by
    have hids := LruRecords.groupIds_setRecord (h.record_of_get hget) hgroup
    rw [h.group, LruRecords.group_congr (by rw [hids])]

theorem moveToFront (hget : c.perkeyMetadataList.get it = some (key, t)) :
    Represents (c.moveToFront it) (w.moveToFront key) where
  list := by
    rw [PerkeyRecords.moveToFront, toList_moveToFront hget,
      toList_erase h.nodup_list hget, h.list]
    exact (LruRecords.lru_moveToFront (h.record_of_get hget)).symm
  listBytes := by rw [bytesOfKeys_perm (w.perm_moveToFront key)]; exact h.listBytes
  groupId := h.groupId
  groupKeycnt := h.groupKeycnt
  group groupId := (h.group groupId).trans
    (LruRecords.group_congr (w.groupIds_moveToFront key) groupId).symm

/-- The group of a removed key has one key fewer. -/
theorem group_removeKey (hr : w.record key = some t) (groupId : Nat) :
    (if (w.groupIds.count (getGroupId t) - 1 = 0) then
        c.pergroupMetadataMap.erase (getGroupId t)
      else c.pergroupMetadataMap.insert (getGroupId t)
        ⟨w.groupIds.count (getGroupId t) - 1⟩).lookup groupId =
      (w.removeKey key).group groupId := by
  have hcount := (LruRecords.perm_groupIds_removeKey hr).count_eq groupId
  rw [count_cons] at hcount
  by_cases heq : groupId = getGroupId t
  · subst heq
    rw [if_pos (beq_self_eq_true _)] at hcount
    rw [LruRecords.group, hcount, Nat.add_sub_cancel]
    split
    · exact (lookup_erase_eq _ _ _).trans (if_pos rfl)
    · exact (lookup_insert_eq _ _ _ _).trans (if_pos rfl)
  · have hbeq : ¬ ((getGroupId t == groupId) = true) := by
      intro hbeq
      exact heq (eq_of_beq hbeq).symm
    rw [if_neg hbeq, Nat.add_zero] at hcount
    rw [LruRecords.group, ← hcount]
    split
    · exact (lookup_erase_eq _ _ _).trans ((if_neg heq).trans (h.group groupId))
    · exact (lookup_insert_eq _ _ _ _).trans ((if_neg heq).trans (h.group groupId))

/-- The two steps that take a key out of its group and out of the list. -/
theorem exists_removed (hget : c.perkeyMetadataList.get it = some (key, t)) :
    ∃ c₁ c₂, c.removePergroupMetadata (getGroupId t) = some c₁ ∧
      c₁.removePerkeyMetadata it = some c₂ ∧ Represents c₂ (w.removeKey key) ∧
      c₂.perkeyMetadataList = c.perkeyMetadataList.erase it := by
  have hr := h.record_of_get hget
  have hgroup := (h.group (getGroupId t)).trans
    (if_neg (Nat.ne_of_gt (LruRecords.count_groupIds_pos hr)))
  have hpergroup : c.removePergroupMetadata (getGroupId t) = some { c with
      pergroupMetadataMap := if w.groupIds.count (getGroupId t) - 1 = 0 then
          c.pergroupMetadataMap.erase (getGroupId t)
        else c.pergroupMetadataMap.insert (getGroupId t)
          ⟨w.groupIds.count (getGroupId t) - 1⟩ } := by
    simp only [removePergroupMetadata, hgroup, GroupLevelMetadata.updateForDegrouped, some_bind,
      Option.pure_def, decide_eq_true_eq]
  have hperkey : ∀ c₁ : PerkeyRecords T, c₁.perkeyMetadataList = c.perkeyMetadataList →
      c₁.removePerkeyMetadata it = some { c₁ with
        perkeyMetadataList := c₁.perkeyMetadataList.erase it
        perkeyMetadataListKeySize :=
          uint64Minus c₁.perkeyMetadataListKeySize key.getKeyLength } := by
    intro c₁ hlist
    rw [removePerkeyMetadata, hlist, hget]
    rfl
  refine ⟨_, _, hpergroup, hperkey _ rfl, ?_, rfl⟩
  constructor
  case list => exact (toList_erase h.nodup_list hget).trans (by rw [h.list]; rfl)
  case listBytes => rw [h.listBytes, LruRecords.bytesOfKeys_removeKey hr]
  case groupId => exact h.groupId
  case groupKeycnt => exact h.groupKeycnt
  case group => exact h.group_removeKey hr

/-- The group of a new key has one key more. -/
theorem group_insertKey (hnew : key ∉ w.keys)
    (hbytes : bytesOfKeys w.keys + key.getKeyLength < uint64Limit) (groupId : Nat) :
    (c.pergroupMetadataMap.insert (getGroupId t)
        ((c.pergroupMetadataMap.lookup (getGroupId t)).getD
          {}).updateForNewlyGrouped).lookup groupId =
      (w.insertKey key t hnew hbytes).group groupId := by
  rw [lookup_insert_eq, LruRecords.group, LruRecords.groupIds_insertKey,
    count_cons]
  by_cases heq : groupId = getGroupId t
  · subst heq
    rw [if_pos rfl, if_pos (beq_self_eq_true _), if_neg (Nat.succ_ne_zero _), h.group,
      LruRecords.group]
    split
    · next hzero => rw [hzero]; rfl
    · rfl
  · have hbeq : ¬ ((getGroupId t == groupId) = true) := by
      intro hbeq
      exact heq (eq_of_beq hbeq).symm
    rw [if_neg heq, if_neg hbeq, Nat.add_zero, h.group, LruRecords.group]

/-- A new key with its record and its popularity. -/
theorem insertKey (hnew : key ∉ w.keys)
    (hbytes : bytesOfKeys w.keys + key.getKeyLength < uint64Limit)
    (hgroup : getGroupId t = (assignGroup c.curGroupId c.curGroupKeycnt).1) (t₀ : T) :
    Represents
      { c with
        perkeyMetadataListKeySize := bytesOfKeys w.keys + key.getKeyLength
        perkeyMetadataList :=
          (c.perkeyMetadataList.pushFront (key, t₀)).set c.perkeyMetadataList.next (key, t)
        curGroupId := (assignGroup c.curGroupId c.curGroupKeycnt).1
        curGroupKeycnt := (assignGroup c.curGroupId c.curGroupKeycnt).2
        pergroupMetadataMap :=
          c.pergroupMetadataMap.insert (assignGroup c.curGroupId c.curGroupKeycnt).1
            ((c.pergroupMetadataMap.lookup (assignGroup c.curGroupId c.curGroupKeycnt).1).getD
              {}).updateForNewlyGrouped }
      (w.insertKey key t hnew hbytes) where
  list := by rw [toList_set_pushFront, h.list]; rfl
  listBytes := (Nat.add_comm _ _).trans (bytesOfKeys_cons key w.keys).symm
  groupId := by rw [h.groupId, h.groupKeycnt]; rfl
  groupKeycnt := by rw [h.groupId, h.groupKeycnt]; rfl
  group groupId := by
    have hinserted := h.group_insertKey (t := t) hnew hbytes groupId
    rwa [hgroup] at hinserted

end Represents

/-- What the addition of a record returns: the record, its place and the list with it. -/
structure Added (c : PerkeyRecords T) (w : LruRecords T) (key : Key) (hnew : key ∉ w.keys)
    (hbytes : bytesOfKeys w.keys + key.getKeyLength < uint64Limit)
    (result : PerkeyRecords T × Nat × T) (t : T) : Prop where
  record : result.2.2 = t
  place : result.2.1 = c.perkeyMetadataList.next
  represents : result.1.Represents (w.insertKey key t hnew hbytes)
  get : ∀ it, result.1.perkeyMetadataList.get it =
    if it = c.perkeyMetadataList.next then some (key, t) else c.perkeyMetadataList.get it

theorem addRecord (h : Represents c w) (hnew : key ∉ w.keys)
    (hbytes : bytesOfKeys w.keys + key.getKeyLength < uint64Limit) (edge : EdgeContext)
    (value : Value) (isGlobalCached isNeighborCached : Bool) (added addedRedirected : Nat) :
    Option.Rel (Added c w key hnew hbytes)
      (c.addRecord edge key value isGlobalCached isNeighborCached added addedRedirected)
      (LruRecords.newRecord edge (assignGroup w.curGroupId w.curGroupKeycnt).1 key value
        isGlobalCached isNeighborCached added addedRedirected) := by
  rw [← h.groupId, ← h.groupKeycnt]
  simp only [PerkeyRecords.addRecord, LruRecords.newRecord, addPergroupMetadata,
    addPerkeyMetadata, h.listBytes, uint64Add_eq hbytes, Option.bind_eq_bind, Option.bind_some,
    Option.pure_def]
  cases hcreated : updateNoValueDynamicMetadata (create
    (assignGroup c.curGroupId c.curGroupKeycnt).1 isNeighborCached : T) false isGlobalCached added
    addedRedirected with
  | none => exact .none
  | some created =>
    simp only [Option.bind_some]
    cases hsized : updateValueDynamicMetadata created (objectSize key value) 0 with
    | none => exact .none
    | some sized =>
      have hget : (c.perkeyMetadataList.pushFront (key, sized)).get c.perkeyMetadataList.next =
          some (key, sized) := get_pushFront.trans (if_pos rfl)
      simp only [Option.bind_some]
      rw [updatePerkeyMetadata_eq hget]
      cases hpop : calculateAndUpdatePopularity edge sized with
      | none => exact .none
      | some t =>
        have hvalue := value_spec hsized
        have hgroup := (popularity_keeps hpop).1.trans
          (hvalue.1.trans ((noValue_keeps hcreated).1.trans
            (getGroupId_create _ _)))
        refine .some ⟨rfl, rfl, h.insertKey hnew hbytes hgroup sized, fun it => ?_⟩
        refine (get_set hget).trans ?_
        split
        · rfl
        · next hne => exact get_pushFront.trans (if_neg hne)

end Represents

end PerkeyRecords

end Covered.Cache
