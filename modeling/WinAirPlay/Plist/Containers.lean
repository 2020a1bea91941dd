import WinAirPlay.Foundations.HashTable
import WinAirPlay.Plist.Writer

/-! # Dictionaries and arrays that are built

`plist.c` looks a key up in the list of children, and in a hash table once a dictionary has more
than 500 children; an array of more than 100 items has a pointer array. A value is a pointer to a
node, and a node that is added is not in the container yet. The results are that the table and the
pointer array are not seen: a dictionary is the map, and an array the list, that the calls say.
-/

namespace WinAirPlay
open Foundations Foundations.ByteBuffer Foundations.HashTable
set_option autoImplicit false

/-- A string without its terminator. -/
abbrev Key := { s : Bytes // 0 ∉ s }

def dictKeyHash (key : Key) : ℕ := djb2 5381 key.1

def dictKeyBucket (key : Key) : ℕ := dictKeyHash key % 4096

def dictKeyCompare (a b : Key) : Bool :=
  a.1.length == b.1.length && untilNul a.1 == untilNul b.1

theorem dictKeyCompare_iff (a b : Key) : dictKeyCompare a b = true ↔ a = b := by
  have huntil : ∀ key : Key, untilNul key.1 = key.1 := fun key => untilNul_eq_self key.2
  unfold dictKeyCompare
  rw [huntil, huntil, Bool.and_eq_true, beq_iff_eq, beq_iff_eq]
  constructor
  · exact fun h => Subtype.ext h.2
  · rintro rfl
    exact ⟨rfl, rfl⟩

theorem compares_dictKeyCompare : Compares dictKeyCompare where
  refl a := (dictKeyCompare_iff a a).mpr rfl
  symm a b h := (dictKeyCompare_iff b a).mpr ((dictKeyCompare_iff a b).mp h).symm
  trans a b c hab hbc :=
    (dictKeyCompare_iff a c).mpr (((dictKeyCompare_iff a b).mp hab).trans ((dictKeyCompare_iff b c).mp hbc))

/-! ## Dictionaries -/

section
variable {V : Type} [DecidableEq V]

/-- The children in pairs, and the table that `hashtable` points to. -/
structure PlistDict (V : Type) where
  items : List (Key × V)
  hashtable : Option (Table Key V)

def plistNewDictNode : PlistDict V := ⟨[], none⟩

def plistDictGet (d : PlistDict V) (key : Key) : Option V :=
  match d.hashtable with
  | some ht => lookup dictKeyBucket dictKeyCompare ht key
  | none => (d.items.find? fun item => untilNul key.1 = untilNul item.1.1).map Prod.snd

/-- The key in front of a value. -/
def keyOfValue (items : List (Key × V)) (value : V) : Option Key :=
  (items.find? fun item => item.2 = value).map Prod.fst

/-- The table after the children became `items`, of which `key` is the one that was set. -/
def dictPostInsert (hashtable : Option (Table Key V)) (items : List (Key × V)) (key : Key) (item : V) :
    Option (Table Key V) :=
  match hashtable with
  | some ht => some (insert dictKeyBucket dictKeyCompare ht key item)
  | none =>
    if 500 < 2 * items.length then
      some (items.foldl (fun ht e => insert dictKeyBucket dictKeyCompare ht e.1 e.2) Table.empty)
    else none

def plistDictSet (d : PlistDict V) (key : Key) (item : V) : PlistDict V :=
  match plistDictGet d key with
  | some oldItem =>
    -- the new node takes the place of the old one
    let items := d.items.map fun e => if e.2 = oldItem then (e.1, item) else e
    ⟨items, dictPostInsert d.hashtable items ((keyOfValue d.items oldItem).getD key) item⟩
  | none =>
    let items := d.items ++ [(key, item)]
    ⟨items, dictPostInsert d.hashtable items key item⟩

def plistDictRemove (d : PlistDict V) (key : Key) : PlistDict V :=
  match plistDictGet d key with
  | some oldItem =>
    ⟨d.items.filter fun e => e.2 ≠ oldItem,
      d.hashtable.map fun ht =>
        remove dictKeyBucket dictKeyCompare ht ((keyOfValue d.items oldItem).getD key)⟩
  | none => d

/-- The map that a list of pairs is. -/
def valueOf (items : List (Key × V)) (key : Key) : Option V :=
  (items.find? fun item => item.1 = key).map Prod.snd

/-- Keys and values are different, and the table has the value of every key. -/
structure PlistDict.Coherent (d : PlistDict V) : Prop where
  keys : (d.items.map Prod.fst).Nodup
  values : (d.items.map Prod.snd).Nodup
  table : ∀ ht, d.hashtable = some ht → Distinct dictKeyCompare ht ∧
    ∀ key, lookup dictKeyBucket dictKeyCompare ht key = valueOf d.items key

/-! ### Lists of pairs -/

omit [DecidableEq V] in
theorem valueOf_cons (e : Key × V) (items : List (Key × V)) (key : Key) :
    valueOf (e :: items) key = if e.1 = key then some e.2 else valueOf items key := by
  rw [valueOf, List.find?_cons]
  by_cases h : e.1 = key
  · rw [if_pos h, decide_eq_true h]
    rfl
  · rw [if_neg h, decide_eq_false h]
    rfl

omit [DecidableEq V] in
theorem valueOf_eq_some_iff {items : List (Key × V)} (hkeys : (items.map Prod.fst).Nodup) (key : Key)
    (value : V) : valueOf items key = some value ↔ (key, value) ∈ items := by
  induction items with
  | nil => simp [valueOf]
  | cons e items ih =>
    obtain ⟨hnew, hrest⟩ := List.nodup_cons.mp hkeys
    rw [valueOf_cons, List.mem_cons]
    by_cases h : e.1 = key
    · rw [if_pos h]
      subst h
      constructor
      · rintro hv
        obtain rfl := Option.some.inj hv
        exact .inl rfl
      · rintro (heq | hmem)
        · rw [← heq]
        · exact absurd (List.mem_map_of_mem hmem) hnew
    · rw [if_neg h, ih hrest]
      constructor
      · exact .inr
      · rintro (heq | hmem)
        · exact absurd (congrArg Prod.fst heq).symm h
        · exact hmem

omit [DecidableEq V] in
/-- A list of pairs is the map that its members say. -/
theorem valueOf_ext {items : List (Key × V)} (hkeys : (items.map Prod.fst).Nodup)
    {m : Key → Option V} (h : ∀ key value, (key, value) ∈ items ↔ m key = some value) :
    valueOf items = m := by
  funext key
  refine Option.ext fun value => ?_
  rw [valueOf_eq_some_iff hkeys, h]

omit [DecidableEq V] in
theorem lookup_insert_key (ht : Table Key V) (key key' : Key) (value : V) :
    lookup dictKeyBucket dictKeyCompare (insert dictKeyBucket dictKeyCompare ht key value) key' =
      if key = key' then some value else lookup dictKeyBucket dictKeyCompare ht key' := by
  rw [lookup_insert compares_dictKeyCompare]
  by_cases h : key = key'
  · subst h
    rw [if_pos rfl, if_pos ⟨rfl, compares_dictKeyCompare.refl key⟩]
  · rw [if_neg h, if_neg fun hboth => h ((dictKeyCompare_iff _ _).mp hboth.2)]

omit [DecidableEq V] in
/-- The table that is made when there are enough children. -/
theorem lookup_foldl_insert {items : List (Key × V)} (hkeys : (items.map Prod.fst).Nodup)
    {ht : Table Key V} (hdistinct : Distinct dictKeyCompare ht) :
    Distinct dictKeyCompare
        (items.foldl (fun ht e => insert dictKeyBucket dictKeyCompare ht e.1 e.2) ht) ∧
      ∀ key, lookup dictKeyBucket dictKeyCompare
          (items.foldl (fun ht e => insert dictKeyBucket dictKeyCompare ht e.1 e.2) ht) key =
        (valueOf items key).or (lookup dictKeyBucket dictKeyCompare ht key) := by
  induction items generalizing ht with
  | nil => exact ⟨hdistinct, fun _ => rfl⟩
  | cons e items ih =>
    obtain ⟨hnew, hrest⟩ := List.nodup_cons.mp hkeys
    obtain ⟨hd, hlookup⟩ := ih hrest (hdistinct.insert compares_dictKeyCompare e.1 e.2)
    refine ⟨hd, fun key => ?_⟩
    rw [List.foldl_cons, hlookup, lookup_insert_key, valueOf_cons]
    by_cases h : e.1 = key
    · have hnone : valueOf items key = none := by
        by_contra hne
        obtain ⟨v, hv⟩ := Option.ne_none_iff_exists'.mp hne
        have hmem := (valueOf_eq_some_iff hrest key v).mp hv
        exact hnew (h ▸ List.mem_map_of_mem hmem)
      rw [if_pos h, if_pos h, hnone]
      rfl
    · rw [if_neg h, if_neg h]

/-! ### The calls -/

omit [DecidableEq V] in
theorem plistDictGet_eq {d : PlistDict V} (hd : d.Coherent) (key : Key) :
    plistDictGet d key = valueOf d.items key := by
  unfold plistDictGet
  cases hht : d.hashtable with
  | some ht => exact (hd.table ht hht).2 key
  | none =>
    unfold valueOf
    dsimp only
    congr 2
    funext item
    rw [untilNul_eq_self key.2, untilNul_eq_self item.1.2, decide_eq_decide, eq_comm, Subtype.ext_iff]

omit [DecidableEq V] in
theorem coherent_new : (plistNewDictNode : PlistDict V).Coherent where
  keys := List.nodup_nil
  values := List.nodup_nil
  table ht h := by cases h

omit [DecidableEq V] in
/-- The table stays that of the children if the children are the old map with one new value. -/
theorem coherent_postInsert {d : PlistDict V} (hd : d.Coherent) {items : List (Key × V)} {key : Key}
    {item : V} (hkeys : (items.map Prod.fst).Nodup) (hvalues : (items.map Prod.snd).Nodup)
    (hitems : valueOf items = Function.update (valueOf d.items) key (some item)) :
    (PlistDict.mk items (dictPostInsert d.hashtable items key item)).Coherent where
  keys := hkeys
  values := hvalues
  table ht h := by
    unfold dictPostInsert at h
    cases hht : d.hashtable with
    | some ht' =>
      rw [hht] at h
      obtain rfl := Option.some.inj h
      obtain ⟨hdistinct, hlookup⟩ := hd.table ht' hht
      refine ⟨hdistinct.insert compares_dictKeyCompare _ _, fun key' => ?_⟩
      rw [lookup_insert_key, hlookup, hitems]
      by_cases h : key = key'
      · rw [if_pos h, h, Function.update_self]
      · rw [if_neg h, Function.update_of_ne (Ne.symm h)]
    | none =>
      rw [hht] at h
      dsimp only at h
      split at h
      · obtain rfl := Option.some.inj h
        obtain ⟨hdistinct, hlookup⟩ := lookup_foldl_insert hkeys distinct_empty
        refine ⟨hdistinct, fun key' => ?_⟩
        rw [hlookup, lookup_empty, Option.or_none]
      · cases h

/-- The value that is found, its pair and the key in front of it. -/
theorem pair_of_get {d : PlistDict V} (hd : d.Coherent) {key : Key} {old : V}
    (h : plistDictGet d key = some old) :
    (∀ e ∈ d.items, e.2 = old ↔ e.1 = key) ∧ keyOfValue d.items old = some key := by
  rw [plistDictGet_eq hd, valueOf_eq_some_iff hd.keys] at h
  have hiff : ∀ e ∈ d.items, e.2 = old ↔ e.1 = key := by
    intro e he
    constructor
    · intro hv
      exact congrArg Prod.fst (List.inj_on_of_nodup_map hd.values he h hv)
    · intro hk
      exact congrArg Prod.snd (List.inj_on_of_nodup_map hd.keys he h hk)
  refine ⟨hiff, ?_⟩
  unfold keyOfValue
  cases hfind : d.items.find? fun item => item.2 = old with
  | none =>
    have hnone := List.find?_eq_none.mp hfind (key, old) h
    simp at hnone
  | some e =>
    have hvalue : e.2 = old := by simpa using List.find?_some hfind
    exact congrArg some ((hiff e (List.mem_of_find?_eq_some hfind)).mp hvalue)

/-- The pairs after one value took the place of another. -/
def replaceValue (old new : V) (items : List (Key × V)) : List (Key × V) :=
  items.map fun e => if e.2 = old then (e.1, new) else e

theorem map_fst_replaceValue (old new : V) (items : List (Key × V)) :
    (replaceValue old new items).map Prod.fst = items.map Prod.fst := by
  unfold replaceValue
  rw [List.map_map]
  refine List.map_congr_left fun e _ => ?_
  dsimp only [Function.comp]
  split <;> rfl

theorem nodup_replaceValue {old new : V} {items : List (Key × V)}
    (hvalues : (items.map Prod.snd).Nodup) (hnew : new ∉ items.map Prod.snd) :
    ((replaceValue old new items).map Prod.snd).Nodup := by
  induction items with
  | nil => exact List.nodup_nil
  | cons e items ih =>
    obtain ⟨hhead, hrest⟩ := List.nodup_cons.mp hvalues
    rw [List.map_cons, List.mem_cons, not_or] at hnew
    have hvalue : ∀ x : Key × V, x ∈ replaceValue old new items → x.2 = new ∨ x.2 ∈ items.map Prod.snd := by
      intro x hx
      obtain ⟨e', he', rfl⟩ := List.mem_map.mp hx
      by_cases h : e'.2 = old
      · rw [if_pos h]
        exact .inl rfl
      · rw [if_neg h]
        exact .inr (List.mem_map_of_mem he')
    have hcons : replaceValue old new (e :: items) =
        (if e.2 = old then (e.1, new) else e) :: replaceValue old new items := rfl
    rw [hcons, List.map_cons, List.nodup_cons]
    refine ⟨fun hmem => ?_, ih hrest hnew.2⟩
    obtain ⟨x, hx, heq⟩ := List.mem_map.mp hmem
    by_cases h : e.2 = old
    · -- the value that is replaced stands in no other pair
      rw [if_pos h] at heq
      obtain ⟨e', he', rfl⟩ := List.mem_map.mp hx
      have hother : e'.2 ≠ old := fun h' => hhead (h ▸ h' ▸ List.mem_map_of_mem he')
      rw [if_neg hother] at heq
      have hmem' := List.mem_map_of_mem (f := Prod.snd) he'
      rw [heq] at hmem'
      exact hnew.2 hmem'
    · rw [if_neg h] at heq
      rcases hvalue x hx with hx' | hx'
      · exact hnew.1 (hx'.symm.trans heq)
      · exact hhead (heq ▸ hx')

theorem plistDictSet_spec {d : PlistDict V} (hd : d.Coherent) (key : Key) {item : V}
    (hfresh : item ∉ d.items.map Prod.snd) :
    (plistDictSet d key item).Coherent ∧
      valueOf (plistDictSet d key item).items = Function.update (valueOf d.items) key (some item) := by
  unfold plistDictSet
  cases hold : plistDictGet d key with
  | some old =>
    obtain ⟨hiff, hkeyOf⟩ := pair_of_get hd hold
    rw [plistDictGet_eq hd, valueOf_eq_some_iff hd.keys] at hold
    dsimp only
    rw [hkeyOf, Option.getD_some]
    change (PlistDict.mk (replaceValue old item d.items)
        (dictPostInsert d.hashtable (replaceValue old item d.items) key item)).Coherent ∧
      valueOf (replaceValue old item d.items) = _
    have hkeys : ((replaceValue old item d.items).map Prod.fst).Nodup := by
      rw [map_fst_replaceValue]
      exact hd.keys
    have hmap : valueOf (replaceValue old item d.items) =
        Function.update (valueOf d.items) key (some item) := by
      refine valueOf_ext hkeys fun key' value => ?_
      unfold replaceValue
      rw [List.mem_map]
      by_cases hkey : key' = key
      · subst hkey
        rw [Function.update_self, Option.some.injEq]
        constructor
        · rintro ⟨e, he, heq⟩
          by_cases h : e.2 = old
          · rw [if_pos h] at heq
            exact congrArg Prod.snd heq
          · rw [if_neg h] at heq
            exact absurd ((hiff e he).mpr (congrArg Prod.fst heq)) h
        · rintro rfl
          exact ⟨_, hold, if_pos rfl⟩
      · rw [Function.update_of_ne hkey, valueOf_eq_some_iff hd.keys]
        constructor
        · rintro ⟨e, he, heq⟩
          by_cases h : e.2 = old
          · rw [if_pos h] at heq
            exact absurd ((congrArg Prod.fst heq).symm.trans ((hiff e he).mp h)) hkey
          · rw [if_neg h] at heq
            exact heq ▸ he
        · intro hmem
          exact ⟨_, hmem, if_neg fun h => hkey ((hiff _ hmem).mp h)⟩
    exact ⟨coherent_postInsert hd hkeys (nodup_replaceValue hd.values hfresh) hmap, hmap⟩
  | none =>
    rw [plistDictGet_eq hd] at hold
    dsimp only
    have habsent : key ∉ d.items.map Prod.fst := by
      intro hmem
      obtain ⟨e, he, rfl⟩ := List.mem_map.mp hmem
      rw [(valueOf_eq_some_iff hd.keys e.1 e.2).mpr he] at hold
      cases hold
    have hkeys : ((d.items ++ [(key, item)]).map Prod.fst).Nodup := by
      rw [List.map_append]
      exact hd.keys.append (List.nodup_singleton _) (List.disjoint_singleton.mpr habsent)
    have hvalues : ((d.items ++ [(key, item)]).map Prod.snd).Nodup := by
      rw [List.map_append]
      exact hd.values.append (List.nodup_singleton _) (List.disjoint_singleton.mpr hfresh)
    have hmap : valueOf (d.items ++ [(key, item)]) =
        Function.update (valueOf d.items) key (some item) := by
      refine valueOf_ext hkeys fun key' value => ?_
      rw [List.mem_append, List.mem_singleton, Prod.mk.injEq]
      by_cases hkey : key' = key
      · subst hkey
        rw [Function.update_self, Option.some.injEq]
        constructor
        · rintro (hmem | ⟨-, heq⟩)
          · exact absurd (List.mem_map_of_mem hmem) habsent
          · exact heq.symm
        · rintro rfl
          exact .inr ⟨rfl, rfl⟩
      · rw [Function.update_of_ne hkey, valueOf_eq_some_iff hd.keys]
        constructor
        · rintro (hmem | ⟨heq, -⟩)
          · exact hmem
          · exact absurd heq hkey
        · exact .inl
    exact ⟨coherent_postInsert hd hkeys hvalues hmap, hmap⟩

theorem plistDictRemove_spec {d : PlistDict V} (hd : d.Coherent) (key : Key) :
    (plistDictRemove d key).Coherent ∧
      valueOf (plistDictRemove d key).items = Function.update (valueOf d.items) key none := by
  unfold plistDictRemove
  cases hold : plistDictGet d key with
  | none =>
    rw [plistDictGet_eq hd] at hold
    refine ⟨hd, ?_⟩
    dsimp only
    rw [← hold, Function.update_eq_self]
  | some old =>
    obtain ⟨hiff, hkeyOf⟩ := pair_of_get hd hold
    dsimp only
    rw [hkeyOf, Option.getD_some]
    have hsub : (d.items.filter fun e => e.2 ≠ old).Sublist d.items := List.filter_sublist
    have hkeys : ((d.items.filter fun e => e.2 ≠ old).map Prod.fst).Nodup :=
      hd.keys.sublist (hsub.map _)
    have hmap : valueOf (d.items.filter fun e => e.2 ≠ old) =
        Function.update (valueOf d.items) key none := by
      refine valueOf_ext hkeys fun key' value => ?_
      rw [List.mem_filter, decide_eq_true_iff]
      by_cases hkey : key' = key
      · subst hkey
        rw [Function.update_self]
        constructor
        · rintro ⟨hmem, hne⟩
          exact absurd ((hiff _ hmem).mpr rfl) hne
        · exact nofun
      · rw [Function.update_of_ne hkey, valueOf_eq_some_iff hd.keys]
        constructor
        · exact And.left
        · exact fun hmem => ⟨hmem, fun h => hkey ((hiff _ hmem).mp h)⟩
    refine ⟨⟨hkeys, hd.values.sublist (hsub.map _), fun ht h => ?_⟩, hmap⟩
    obtain ⟨ht', hht', rfl⟩ := Option.map_eq_some_iff.mp h
    obtain ⟨hdistinct, hlookup⟩ := hd.table ht' hht'
    refine ⟨hdistinct.remove key, fun key' => ?_⟩
    rw [lookup_remove compares_dictKeyCompare hdistinct, hmap, hlookup]
    by_cases hkey : key' = key
    · subst hkey
      rw [Function.update_self, if_pos ⟨rfl, compares_dictKeyCompare.refl _⟩]
    · rw [Function.update_of_ne hkey,
        if_neg fun h => hkey ((dictKeyCompare_iff _ _).mp h.2).symm]

/-- What can be done with a dictionary, and what it does to the map. -/
inductive DictRun : PlistDict V → (Key → Option V) → Prop
  | new : DictRun plistNewDictNode fun _ => none
  | set {d : PlistDict V} {m : Key → Option V} (h : DictRun d m) (key : Key) (item : V)
      (hfresh : item ∉ d.items.map Prod.snd) :
      DictRun (plistDictSet d key item) (Function.update m key (some item))
  | remove {d : PlistDict V} {m : Key → Option V} (h : DictRun d m) (key : Key) :
      DictRun (plistDictRemove d key) (Function.update m key none)

theorem DictRun.coherent {d : PlistDict V} {m : Key → Option V} (h : DictRun d m) :
    d.Coherent ∧ valueOf d.items = m := by
  induction h with
  | new => exact ⟨coherent_new, rfl⟩
  | set _ key item hfresh ih =>
    obtain ⟨hd, rfl⟩ := ih
    exact plistDictSet_spec hd key hfresh
  | remove _ key ih =>
    obtain ⟨hd, rfl⟩ := ih
    exact plistDictRemove_spec hd key

/-- After any calls a key has the value that the last call for it gave it, found in the table or
in the children, and what is written out is one pair for each key that has one. -/
theorem plistDictGet_of_run {d : PlistDict V} {m : Key → Option V} (h : DictRun d m) :
    (∀ key, plistDictGet d key = m key) ∧
      (d.items.map Prod.fst).Nodup ∧ ∀ key value, (key, value) ∈ d.items ↔ m key = some value := by
  obtain ⟨hd, hm⟩ := h.coherent
  refine ⟨fun key => ?_, hd.keys, fun key value => ?_⟩
  · rw [plistDictGet_eq hd, hm]
  · rw [← valueOf_eq_some_iff hd.keys, hm]

omit [DecidableEq V] in
/-- With more than 500 children there is a table. -/
theorem dictPostInsert_isSome (hashtable : Option (Table Key V)) {items : List (Key × V)}
    (hlength : 500 < 2 * items.length) (key : Key) (item : V) :
    (dictPostInsert hashtable items key item).isSome := by
  cases hashtable with
  | some ht => rfl
  | none =>
    rw [dictPostInsert, if_pos hlength]
    rfl

theorem plistDictSet_isSome {d : PlistDict V} {key : Key} {item : V}
    (hlength : 500 < 2 * (plistDictSet d key item).items.length) :
    (plistDictSet d key item).hashtable.isSome := by
  unfold plistDictSet at hlength ⊢
  split at hlength
  · exact dictPostInsert_isSome _ hlength _ _
  · exact dictPostInsert_isSome _ hlength _ _

/-- A key that has a value is set in its place. -/
theorem length_plistDictSet {d : PlistDict V} {key : Key} {old : V}
    (h : plistDictGet d key = some old) (item : V) :
    (plistDictSet d key item).items.length = d.items.length := by
  rw [plistDictSet, h]
  exact List.length_map _

theorem plistDictRemove_isSome {d : PlistDict V} (h : d.hashtable.isSome) (key : Key) :
    (plistDictRemove d key).hashtable.isSome := by
  unfold plistDictRemove
  split
  · rw [Option.isSome_map, h]
  · exact h

def nthKey (n : ℕ) : Key := ⟨List.replicate n 97, fun h => by cases List.eq_of_mem_replicate h⟩

theorem nthKey_injective : Function.Injective nthKey := by
  intro i j h
  have hlength := congrArg (fun key : Key => key.1.length) h
  simpa [nthKey] using hlength

/-- The dictionary after `n` keys were set. -/
def dictOfKeys : ℕ → PlistDict ℕ
  | 0 => plistNewDictNode
  | n + 1 => plistDictSet (dictOfKeys n) (nthKey n) n

theorem dictOfKeys_spec (n : ℕ) :
    (∃ m, DictRun (dictOfKeys n) m) ∧
      (dictOfKeys n).items = (List.range n).map fun k => (nthKey k, k) := by
  induction n with
  | zero => exact ⟨⟨_, .new⟩, rfl⟩
  | succ n ih =>
    obtain ⟨⟨m, hrun⟩, hitems⟩ := ih
    obtain ⟨hd, -⟩ := hrun.coherent
    have hfresh : n ∉ (dictOfKeys n).items.map Prod.snd := by
      rw [hitems]
      simp
    have hnone : plistDictGet (dictOfKeys n) (nthKey n) = none := by
      rw [plistDictGet_eq hd, hitems, valueOf, List.find?_eq_none.mpr, Option.map_none]
      rintro _ hmem hkey
      obtain ⟨k, hk, rfl⟩ := List.mem_map.mp hmem
      obtain rfl := nthKey_injective (of_decide_eq_true hkey)
      exact absurd hk List.not_mem_range_self
    refine ⟨⟨_, .set hrun _ n hfresh⟩, ?_⟩
    rw [dictOfKeys, plistDictSet, hnone, hitems, List.range_succ, List.map_append]
    rfl

/-- Of 260 keys one is set again and another removed, both through the table. -/
def editedDict : PlistDict ℕ :=
  plistDictRemove (plistDictSet (dictOfKeys 260) (nthKey 3) 1000) (nthKey 255)

theorem plistDictGet_of_run_manyKeys :
    editedDict.hashtable.isSome ∧ plistDictGet editedDict (nthKey 3) = some 1000 ∧
      plistDictGet editedDict (nthKey 200) = some 200 ∧
      plistDictGet editedDict (nthKey 255) = none := by
  obtain ⟨⟨m, hrun⟩, hitems⟩ := dictOfKeys_spec 260
  obtain ⟨hd, hm⟩ := hrun.coherent
  have hvalue : ∀ k < 260, m (nthKey k) = some k := by
    intro k hk
    rw [← hm, valueOf_eq_some_iff hd.keys, hitems]
    exact List.mem_map_of_mem (f := fun k => (nthKey k, k)) (List.mem_range.mpr hk)
  have hfresh : 1000 ∉ (dictOfKeys 260).items.map Prod.snd := by
    rw [hitems]
    simp
  have hold : plistDictGet (dictOfKeys 260) (nthKey 3) = some 3 := by
    rw [plistDictGet_eq hd, hm, hvalue 3 (by decide)]
  have hne : ∀ {i j : ℕ}, i ≠ j → nthKey i ≠ nthKey j := fun h => nthKey_injective.ne h
  obtain ⟨hget, -⟩ := plistDictGet_of_run (.remove (.set hrun (nthKey 3) 1000 hfresh) (nthKey 255))
  refine ⟨?_, (hget _).trans ?_, (hget _).trans ?_, (hget _).trans (Function.update_self ..)⟩
  · refine plistDictRemove_isSome (plistDictSet_isSome ?_) _
    rw [length_plistDictSet hold, hitems, List.length_map, List.length_range]
    decide
  · rw [Function.update_of_ne (hne (by decide)), Function.update_self]
  · rw [Function.update_of_ne (hne (by decide)), Function.update_of_ne (hne (by decide)),
      hvalue 200 (by decide)]

end

/-! ## Arrays -/

section
variable {V : Type}

/-- The children, and the pointer array that `hashtable` points to. -/
structure PlistArray (V : Type) where
  children : List V
  pdata : Option (List V)

def plistNewArrayNode : PlistArray V := ⟨[], none⟩

def intMax : ℕ := 2 ^ 31 - 1

def plistArrayGetSize (a : PlistArray V) : ℕ := a.children.length

def plistArrayGetItem (a : PlistArray V) (n : ℕ) : Option V :=
  if n < intMax then
    match a.pdata with
    | some pa => pa[n]?
    | none => a.children[n]?
  else none

/-- `none` is the index -1. -/
def ptrArrayInsert (pa : List V) (data : V) (arrayIndex : Option ℕ) : List V :=
  match arrayIndex with
  | none => pa ++ [data]
  | some i => if pa.length ≤ i then pa ++ [data] else pa.insertIdx i data

def ptrArrayRemove (pa : List V) (arrayIndex : ℕ) : List V :=
  if pa.length ≤ arrayIndex then pa else pa.eraseIdx arrayIndex

def ptrArraySet (pa : List V) (data : V) (arrayIndex : ℕ) : List V :=
  if pa.length ≤ arrayIndex then pa else pa.set arrayIndex data

def nodeListInsert (list : List V) (nodeIndex : ℕ) (node : V) : List V :=
  if list.length ≤ nodeIndex then list ++ [node] else list.insertIdx nodeIndex node

/-- The pointer array after the children became `children`. -/
def plistArrayPostInsert (pdata : Option (List V)) (children : List V) (item : V) (n : Option ℕ) :
    Option (List V) :=
  match pdata with
  | some pa => some (ptrArrayInsert pa item n)
  | none =>
    if 100 < children.length then
      some (children.foldl (fun pa current => ptrArrayInsert pa current none) [])
    else none

def plistArraySetItem [DecidableEq V] (a : PlistArray V) (item : V) (n : ℕ) : PlistArray V :=
  match plistArrayGetItem a n with
  | some oldItem =>
    -- the old node is freed, and the new one is inserted where it was
    let idx := a.children.idxOf oldItem
    ⟨nodeListInsert (a.children.eraseIdx idx) idx item, a.pdata.map fun pa => ptrArraySet pa item idx⟩
  | none => a

def plistArrayAppendItem (a : PlistArray V) (item : V) : PlistArray V :=
  let children := a.children ++ [item]
  ⟨children, plistArrayPostInsert a.pdata children item none⟩

def plistArrayInsertItem (a : PlistArray V) (item : V) (n : ℕ) : PlistArray V :=
  if n < intMax then
    let children := nodeListInsert a.children n item
    ⟨children, plistArrayPostInsert a.pdata children item (some n)⟩
  else a

def plistArrayRemoveItem [DecidableEq V] (a : PlistArray V) (n : ℕ) : PlistArray V :=
  match plistArrayGetItem a n with
  | some oldItem =>
    ⟨a.children.eraseIdx (a.children.idxOf oldItem), a.pdata.map fun pa => ptrArrayRemove pa n⟩
  | none => a

/-- The items are different nodes, and the pointer array has them in their order. -/
structure PlistArray.Coherent (a : PlistArray V) : Prop where
  nodup : a.children.Nodup
  pdata : ∀ pa, a.pdata = some pa → pa = a.children

theorem plistArrayGetItem_eq {a : PlistArray V} (ha : a.Coherent) (n : ℕ) :
    plistArrayGetItem a n = if n < intMax then a.children[n]? else none := by
  unfold plistArrayGetItem
  cases hpa : a.pdata with
  | some pa => rw [ha.pdata pa hpa]
  | none => rfl

theorem foldl_ptrArrayInsert (children pa : List V) :
    children.foldl (fun pa current => ptrArrayInsert pa current none) pa = pa ++ children := by
  induction children generalizing pa with
  | nil => exact (List.append_nil pa).symm
  | cons item children ih =>
    rw [List.foldl_cons, ih, ptrArrayInsert, List.append_assoc, List.singleton_append]

theorem coherent_postArrayInsert {a : PlistArray V} (ha : a.Coherent) {children : List V} {item : V}
    {n : Option ℕ} (hnodup : children.Nodup) (hinsert : ptrArrayInsert a.children item n = children) :
    (PlistArray.mk children (plistArrayPostInsert a.pdata children item n)).Coherent where
  nodup := hnodup
  pdata pa h := by
    unfold plistArrayPostInsert at h
    dsimp only at h
    cases hpa : a.pdata with
    | some pa' =>
      rw [hpa] at h
      obtain rfl := Option.some.inj h
      rw [ha.pdata pa' hpa, hinsert]
    | none =>
      rw [hpa] at h
      dsimp only at h
      split at h
      · rw [foldl_ptrArrayInsert, List.nil_append] at h
        exact (Option.some.inj h).symm
      · cases h

/-- Taking a node out and inserting another where it was replaces it. -/
theorem nodeListInsert_eraseIdx {list : List V} {n : ℕ} (hn : n < list.length) (item : V) :
    nodeListInsert (list.eraseIdx n) n item = list.set n item := by
  have hlength : (list.eraseIdx n).length = list.length - 1 := List.length_eraseIdx_of_lt hn
  unfold nodeListInsert
  by_cases hlast : (list.eraseIdx n).length ≤ n
  · have heq : n = list.length - 1 := by omega
    rw [if_pos hlast, List.eraseIdx_eq_take_drop_succ, List.set_eq_take_append_cons_drop, if_pos hn,
      List.drop_eq_nil_of_le (by omega), List.append_nil]
  · rw [if_neg hlast, List.insertIdx_eraseIdx_self (by omega)]

theorem nodup_nodeListInsert {list : List V} (hlist : list.Nodup) {item : V} (hitem : item ∉ list)
    (n : ℕ) : (nodeListInsert list n item).Nodup := by
  unfold nodeListInsert
  split
  · exact hlist.append (List.nodup_singleton _) (List.disjoint_singleton.mpr hitem)
  · rename_i hn
    exact (List.perm_insertIdx item list (by omega)).nodup_iff.mpr (List.nodup_cons.mpr ⟨hitem, hlist⟩)

theorem insertIdx_eq_take_append {list : List V} {n : ℕ} (hn : n ≤ list.length) (item : V) :
    list.insertIdx n item = list.take n ++ item :: list.drop n := by
  induction list generalizing n with
  | nil =>
    obtain rfl := Nat.le_zero.mp hn
    rfl
  | cons head list ih =>
    cases n with
    | zero => rfl
    | succ n => rw [List.insertIdx_succ_cons, ih (Nat.le_of_succ_le_succ hn), List.take_succ_cons,
        List.drop_succ_cons, List.cons_append]

theorem nodeListInsert_eq (list : List V) (n : ℕ) (item : V) :
    nodeListInsert list n item = list.take n ++ item :: list.drop n := by
  unfold nodeListInsert
  by_cases hn : list.length ≤ n
  · rw [if_pos hn, List.take_of_length_le hn, List.drop_of_length_le hn]
  · rw [if_neg hn, insertIdx_eq_take_append (by omega)]

/-- What can be done with an array, and what it does to the list. -/
inductive ArrayRun [DecidableEq V] : PlistArray V → List V → Prop
  | new : ArrayRun plistNewArrayNode []
  | append {a : PlistArray V} {l : List V} (h : ArrayRun a l) (item : V) (hfresh : item ∉ l) :
      ArrayRun (plistArrayAppendItem a item) (l ++ [item])
  | insert {a : PlistArray V} {l : List V} (h : ArrayRun a l) (item : V) (hfresh : item ∉ l) (n : ℕ) :
      ArrayRun (plistArrayInsertItem a item n)
        (if n < intMax then l.take n ++ item :: l.drop n else l)
  | set {a : PlistArray V} {l : List V} (h : ArrayRun a l) (item : V) (hfresh : item ∉ l) (n : ℕ) :
      ArrayRun (plistArraySetItem a item n) (if n < intMax then l.set n item else l)
  | remove {a : PlistArray V} {l : List V} (h : ArrayRun a l) (n : ℕ) :
      ArrayRun (plistArrayRemoveItem a n) (if n < intMax then l.eraseIdx n else l)

theorem plistArrayAppendItem_spec {a : PlistArray V} (ha : a.Coherent) {item : V}
    (hfresh : item ∉ a.children) :
    (plistArrayAppendItem a item).Coherent ∧
      (plistArrayAppendItem a item).children = a.children ++ [item] := by
  refine ⟨coherent_postArrayInsert ha ?_ rfl, rfl⟩
  exact ha.nodup.append (List.nodup_singleton _) (List.disjoint_singleton.mpr hfresh)

theorem plistArrayInsertItem_spec {a : PlistArray V} (ha : a.Coherent) {item : V}
    (hfresh : item ∉ a.children) (n : ℕ) :
    (plistArrayInsertItem a item n).Coherent ∧ (plistArrayInsertItem a item n).children =
      if n < intMax then a.children.take n ++ item :: a.children.drop n else a.children := by
  unfold plistArrayInsertItem
  by_cases hn : n < intMax
  · rw [if_pos hn, if_pos hn, ← nodeListInsert_eq]
    exact ⟨coherent_postArrayInsert ha (nodup_nodeListInsert ha.nodup hfresh n) rfl, rfl⟩
  · rw [if_neg hn, if_neg hn]
    exact ⟨ha, rfl⟩

/-- The node that is found is at the index that was asked for. -/
theorem index_of_get [DecidableEq V] {a : PlistArray V} (ha : a.Coherent) {n : ℕ} {old : V}
    (h : plistArrayGetItem a n = some old) :
    n < intMax ∧ n < a.children.length ∧ a.children.idxOf old = n := by
  rw [plistArrayGetItem_eq ha] at h
  split at h
  · rename_i hn
    obtain ⟨hlt, rfl⟩ := List.getElem?_eq_some_iff.mp h
    exact ⟨hn, hlt, ha.nodup.idxOf_getElem n hlt⟩
  · cases h

theorem outside_of_get {a : PlistArray V} (ha : a.Coherent) {n : ℕ}
    (h : plistArrayGetItem a n = none) : n < intMax → a.children.length ≤ n := by
  intro hn
  rw [plistArrayGetItem_eq ha, if_pos hn] at h
  exact List.getElem?_eq_none_iff.mp h

theorem plistArraySetItem_spec [DecidableEq V] {a : PlistArray V} (ha : a.Coherent) {item : V}
    (hfresh : item ∉ a.children) (n : ℕ) :
    (plistArraySetItem a item n).Coherent ∧ (plistArraySetItem a item n).children =
      if n < intMax then a.children.set n item else a.children := by
  unfold plistArraySetItem
  cases hold : plistArrayGetItem a n with
  | none =>
    refine ⟨ha, ?_⟩
    dsimp only
    split
    · exact (List.set_eq_of_length_le (outside_of_get ha hold ‹_›)).symm
    · rfl
  | some old =>
    obtain ⟨hmax, hn, hindex⟩ := index_of_get ha hold
    dsimp only
    rw [hindex, nodeListInsert_eraseIdx hn, if_pos hmax]
    refine ⟨⟨?_, fun pa h => ?_⟩, rfl⟩
    · rw [← nodeListInsert_eraseIdx hn]
      exact nodup_nodeListInsert (ha.nodup.eraseIdx n)
        (fun h => hfresh ((List.eraseIdx_sublist _ _).subset h)) n
    · obtain ⟨pa', hpa', rfl⟩ := Option.map_eq_some_iff.mp h
      rw [ha.pdata pa' hpa', ptrArraySet, if_neg (by omega)]

theorem plistArrayRemoveItem_spec [DecidableEq V] {a : PlistArray V} (ha : a.Coherent) (n : ℕ) :
    (plistArrayRemoveItem a n).Coherent ∧ (plistArrayRemoveItem a n).children =
      if n < intMax then a.children.eraseIdx n else a.children := by
  unfold plistArrayRemoveItem
  cases hold : plistArrayGetItem a n with
  | none =>
    refine ⟨ha, ?_⟩
    dsimp only
    split
    · exact (List.eraseIdx_of_length_le (outside_of_get ha hold ‹_›)).symm
    · rfl
  | some old =>
    obtain ⟨hmax, hn, hindex⟩ := index_of_get ha hold
    dsimp only
    rw [hindex, if_pos hmax]
    refine ⟨⟨ha.nodup.eraseIdx n, fun pa h => ?_⟩, rfl⟩
    obtain ⟨pa', hpa', rfl⟩ := Option.map_eq_some_iff.mp h
    rw [ha.pdata pa' hpa', ptrArrayRemove, if_neg (by omega)]

theorem ArrayRun.coherent [DecidableEq V] {a : PlistArray V} {l : List V} (h : ArrayRun a l) :
    a.Coherent ∧ a.children = l := by
  induction h with
  | new => exact ⟨⟨List.nodup_nil, nofun⟩, rfl⟩
  | append _ item hfresh ih =>
    obtain ⟨ha, rfl⟩ := ih
    exact plistArrayAppendItem_spec ha hfresh
  | insert _ item hfresh n ih =>
    obtain ⟨ha, rfl⟩ := ih
    exact plistArrayInsertItem_spec ha hfresh n
  | set _ item hfresh n ih =>
    obtain ⟨ha, rfl⟩ := ih
    exact plistArraySetItem_spec ha hfresh n
  | remove _ n ih =>
    obtain ⟨ha, rfl⟩ := ih
    exact plistArrayRemoveItem_spec ha n

/-- After any calls the items are those of the list, in the pointer array as in the children. -/
theorem plistArrayGetItem_of_run [DecidableEq V] {a : PlistArray V} {l : List V} (h : ArrayRun a l) :
    a.children = l ∧ plistArrayGetSize a = l.length ∧
      ∀ n, plistArrayGetItem a n = if n < intMax then l[n]? else none := by
  obtain ⟨ha, rfl⟩ := h.coherent
  exact ⟨rfl, rfl, plistArrayGetItem_eq ha⟩

/-- The array after `n` items were appended. -/
def arrayOfItems : ℕ → PlistArray ℕ
  | 0 => plistNewArrayNode
  | n + 1 => plistArrayAppendItem (arrayOfItems n) n

theorem arrayOfItems_run (n : ℕ) : ArrayRun (arrayOfItems n) (List.range n) := by
  induction n with
  | zero => exact .new
  | succ n ih =>
    rw [List.range_succ]
    exact .append ih n List.not_mem_range_self

set_option maxRecDepth 4000 in
/-- Of 105 items one is replaced and one removed, and another is inserted, all in the pointer array. -/
theorem plistArrayGetItem_of_run_manyItems :
    let a : PlistArray ℕ := plistArrayRemoveItem (plistArraySetItem
      (plistArrayInsertItem (arrayOfItems 105) 1000 50) 2000 3) 100
    a.pdata.isSome ∧ plistArrayGetSize a = 105 ∧ plistArrayGetItem a 3 = some 2000 ∧
      plistArrayGetItem a 50 = some 1000 ∧ plistArrayGetItem a 100 = some 100 ∧
      plistArrayGetItem a 105 = none := by
  intro a
  have hrun : ArrayRun a _ :=
    .remove (.set (.insert (arrayOfItems_run 105) 1000 (by simp) 50) 2000
      (by decide +kernel) 3) 100
  obtain ⟨-, hsize, hget⟩ := plistArrayGetItem_of_run hrun
  exact ⟨by decide +kernel, hsize.trans (by decide +kernel), (hget 3).trans (by decide +kernel),
    (hget 50).trans (by decide +kernel), (hget 100).trans (by decide +kernel),
    (hget 105).trans (by decide +kernel)⟩

end

end WinAirPlay
