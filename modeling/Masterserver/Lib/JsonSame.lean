import Masterserver.Lib.JsonCanonical

/-!
# When two values are the same

`same` is the comparison of a scripting language on decoded values, except that
a truth value is no number: arrays are compared item by item, objects member by
member and whatever the order. The canonical encoding draws exactly these
distinctions. One half is that it sorts the members, so that values with the
same members are sorted alike; the other half is that the sorted value can be
read back from its text.
-/

namespace Lib.Json

mutual

/-- Equality of values, the order of members aside. -/
def same : Json → Json → Bool
  | .null, .null => true
  | .bool a, .bool b => a == b
  | .int m, .int n => m == n
  | .str s, .str t => s == t
  | .arr items, .arr items' => sameItems items items'
  | .obj members, .obj members' =>
      members.length == members'.length && sameMembers members members'
  | _, _ => false

def sameItems : List Json → List Json → Bool
  | [], [] => true
  | v :: rest, w :: rest' => same v w && sameItems rest rest'
  | _, _ => false

/-- Every member of the first object is one of the second. -/
def sameMembers : List (String × Json) → List (String × Json) → Bool
  | [], _ => true
  | (name, v) :: rest, members =>
      (match members.lookup name with
        | some w => same v w
        | none => false) && sameMembers rest members

end

/-- One value is the other with the members of its objects, at any depth, in
another order. -/
inductive Reordered : Json → Json → Prop
  | members {ms ms' : List (String × Json)} (h : ms.Perm ms') : Reordered (.obj ms) (.obj ms')
  | item {v w : Json} (before after : List Json) (h : Reordered v w) :
      Reordered (.arr (before ++ v :: after)) (.arr (before ++ w :: after))
  | member {v w : Json} (name : String) (before after : List (String × Json))
      (h : Reordered v w) :
      Reordered (.obj (before ++ (name, v) :: after)) (.obj (before ++ (name, w) :: after))
  | trans {u v w : Json} (h : Reordered u v) (h' : Reordered v w) : Reordered u w

/-! ## Values that are sorted alike -/

theorem sortItems_eq_map (items : List Json) : sortItems items = items.map sortKeys := by
  induction items with
  | nil => rfl
  | cons v rest ih => rw [sortItems, ih, List.map_cons]

theorem sortMembers_eq_map (members : List (String × Json)) :
    sortMembers members = members.map fun member => (member.1, member.2.sortKeys) := by
  induction members with
  | nil => rfl
  | cons member rest ih => rw [sortMembers, ih, List.map_cons]

theorem plainItems_iff {items : List Json} : PlainItems items ↔ ∀ v ∈ items, v.Plain := by
  induction items with
  | nil => exact ⟨nofun, fun _ => trivial⟩
  | cons v rest ih => rw [PlainItems, ih, List.forall_mem_cons]

theorem plain_obj_iff {members : List (String × Json)} :
    (obj members).Plain ↔
      (members.map Prod.fst).Nodup ∧ ∀ member ∈ members, member.2.Plain := by
  rw [Plain, plainMembers_iff]

theorem sortedMembers_pairwise (members : List (String × Json)) :
    (sortedMembers members).Pairwise fun a b => a.1 ≤ b.1 := by
  have htotal : Std.Total fun a b : String × Json => a.1 ≤ b.1 := ⟨fun a b => le_total a.1 b.1⟩
  have htrans : IsTrans (String × Json) fun a b => a.1 ≤ b.1 := ⟨fun _ _ _ => le_trans⟩
  exact List.pairwise_insertionSort _ _

/-- With different names there is one order to put the members in. -/
theorem sortedMembers_eq_of_perm {ms ms' : List (String × Json)}
    (h : (sortMembers ms).Perm (sortMembers ms')) (hnames : (ms.map Prod.fst).Nodup) :
    sortedMembers ms = sortedMembers ms' := by
  have hperm : (sortedMembers ms).Perm (sortedMembers ms') :=
    (sortedMembers_perm ms).trans (h.trans (sortedMembers_perm ms').symm)
  have hnodup : ((sortedMembers ms).map Prod.fst).Nodup :=
    (map_fst_sortedMembers ms).nodup_iff.mpr hnames
  refine hperm.eq_of_pairwise ?_ (sortedMembers_pairwise ms) (sortedMembers_pairwise ms')
  intro a b ha hb hab hba
  exact List.inj_on_of_nodup_map hnodup ha (hperm.mem_iff.mpr hb) (le_antisymm hab hba)

theorem sameMembers_iff {members members' : List (String × Json)} :
    sameMembers members members' = true ↔
      ∀ member ∈ members, ∃ w, members'.lookup member.1 = some w ∧ same member.2 w = true := by
  induction members with
  | nil => exact ⟨nofun, fun _ => rfl⟩
  | cons member rest ih =>
      obtain ⟨name, v⟩ := member
      rw [sameMembers, Bool.and_eq_true, ih, List.forall_mem_cons]
      refine and_congr_left fun _ => ?_
      cases members'.lookup name with
      | none => exact ⟨nofun, nofun⟩
      | some w => simp

/-! ## Sorted alike, and the same -/

/-- What is shown of a value by induction. -/
def SortedAlike (v : Json) : Prop :=
  ∀ w : Json, v.Plain → w.Plain → (same v w = true ↔ v.sortKeys = w.sortKeys)

theorem sortedAlike_arr {items : List Json} (ih : ∀ v ∈ items, v.SortedAlike) :
    (arr items).SortedAlike := by
  intro w hv hw
  cases w with
  | arr items' =>
      simp only [same, sortKeys, arr.injEq]
      have hitems : PlainItems items := hv
      have hitems' : PlainItems items' := hw
      clear hv hw
      induction items generalizing items' with
      | nil => cases items' <;> simp [sameItems, sortItems]
      | cons v rest ih' =>
          cases items' with
          | nil => simp [sameItems, sortItems]
          | cons w rest' =>
              have hfirst := ih v List.mem_cons_self w hitems.1 hitems'.1
              have hrest : sameItems rest rest' = true ↔ sortItems rest = sortItems rest' :=
                ih' (fun u hu => ih u (List.mem_cons_of_mem v hu)) rest' hitems.2 hitems'.2
              rw [sameItems, sortItems, sortItems, Bool.and_eq_true, List.cons.injEq, hfirst, hrest]
  | _ => simp [same, sortKeys]

/-- Each member of one object is one of the other, and there are as many. -/
theorem sortMembers_perm_of_same {ms ms' : List (String × Json)}
    (ih : ∀ member ∈ ms, member.2.SortedAlike) (hv : (obj ms).Plain) (hw : (obj ms').Plain)
    (h : same (obj ms) (obj ms') = true) : (sortMembers ms).Perm (sortMembers ms') := by
  obtain ⟨hnames, hvalues⟩ := plain_obj_iff.mp hv
  obtain ⟨hnames', hvalues'⟩ := plain_obj_iff.mp hw
  rw [same, Bool.and_eq_true, beq_iff_eq, sameMembers_iff] at h
  obtain ⟨hlength, hmembers⟩ := h
  have hnodup : (sortMembers ms).Nodup := by
    refine List.Nodup.of_map Prod.fst ?_
    rw [map_fst_sortMembers]
    exact hnames
  have hsubset : sortMembers ms ⊆ sortMembers ms' := by
    intro member hmem
    rw [sortMembers_eq_map] at hmem ⊢
    obtain ⟨⟨name, v⟩, hv, rfl⟩ := List.mem_map.mp hmem
    obtain ⟨w, hw, hsame⟩ := hmembers _ hv
    have hw : (name, w) ∈ ms' :=
      Dict.mem_entries.mpr (show (⟨ms', hnames'⟩ : Dict String Json).entries.lookup name = some w
        from hw)
    rw [(ih _ hv w (hvalues _ hv) (hvalues' _ hw)).mp hsame]
    exact List.mem_map_of_mem (f := fun member => (member.1, member.2.sortKeys)) hw
  refine (List.subperm_of_subset hnodup hsubset).perm_of_length_le ?_
  rw [sortMembers_eq_map, sortMembers_eq_map, List.length_map, List.length_map, hlength]

theorem sortedAlike_obj {ms : List (String × Json)} (ih : ∀ member ∈ ms, member.2.SortedAlike) :
    (obj ms).SortedAlike := by
  intro w hv hw
  cases w with
  | obj ms' =>
      obtain ⟨hnames, hvalues⟩ := plain_obj_iff.mp hv
      obtain ⟨hnames', hvalues'⟩ := plain_obj_iff.mp hw
      rw [sortKeys_obj, sortKeys_obj, obj.injEq]
      constructor
      · intro h
        exact sortedMembers_eq_of_perm (sortMembers_perm_of_same ih hv hw h) hnames
      · intro h
        rw [same, Bool.and_eq_true, beq_iff_eq, sameMembers_iff]
        have hlength := congrArg List.length h
        rw [(sortedMembers_perm ms).length_eq, (sortedMembers_perm ms').length_eq,
          sortMembers_eq_map, sortMembers_eq_map, List.length_map, List.length_map] at hlength
        refine ⟨hlength, ?_⟩
        rintro ⟨name, v⟩ hv
        -- The member is looked up in both sorted lists.
        have hlookup : ms.lookup name = some v :=
          Dict.mem_entries.mp (show (name, v) ∈ (⟨ms, hnames⟩ : Dict String Json).entries from hv)
        have hsorted := congrArg (List.lookup name) h
        rw [lookup_sortedMembers hnames, lookup_sortedMembers hnames', hlookup] at hsorted
        obtain ⟨w, hw, hequal⟩ := Option.map_eq_some_iff.mp hsorted.symm
        have hmem : (name, w) ∈ ms' :=
          Dict.mem_entries.mpr
            (show (⟨ms', hnames'⟩ : Dict String Json).entries.lookup name = some w from hw)
        exact ⟨w, hw, (ih _ hv w (hvalues _ hv) (hvalues' _ hmem)).mpr hequal.symm⟩
  | _ => simp [same, sortKeys]

mutual

theorem sortedAlike : ∀ v : Json, v.SortedAlike
  | .null | .bool _ | .int _ | .str _ => by
      intro w _ _
      cases w <;> simp [same, sortKeys]
  | .float _ => fun _ h => h.elim
  | .arr items => sortedAlike_arr (sortedAlike_items items)
  | .obj members => sortedAlike_obj (sortedAlike_members members)

theorem sortedAlike_items : ∀ items : List Json, ∀ v ∈ items, v.SortedAlike
  | [] => nofun
  | v :: rest => List.forall_mem_cons.mpr ⟨sortedAlike v, sortedAlike_items rest⟩

theorem sortedAlike_members : ∀ members : List (String × Json),
    ∀ member ∈ members, member.2.SortedAlike
  | [] => nofun
  | (_, v) :: rest => List.forall_mem_cons.mpr ⟨sortedAlike v, sortedAlike_members rest⟩

end

/-- Values are the same exactly when sorting their members makes them equal. -/
theorem same_iff_sortKeys {v w : Json} (hv : v.Plain) (hw : w.Plain) :
    same v w = true ↔ v.sortKeys = w.sortKeys := sortedAlike v w hv hw

/-! ## Sorting twice -/

theorem sortedMembers_sortedMembers {ms : List (String × Json)}
    (ih : ∀ member ∈ ms, member.2.sortKeys.sortKeys = member.2.sortKeys) :
    sortedMembers (sortedMembers ms) = sortedMembers ms := by
  have hvalues : sortMembers (sortedMembers ms) = sortedMembers ms := by
    rw [sortMembers_eq_map]
    refine (List.map_congr_left fun member hmem => ?_).trans (List.map_id _)
    have hmem := (sortedMembers_perm ms).mem_iff.mp hmem
    rw [sortMembers_eq_map] at hmem
    obtain ⟨original, horiginal, rfl⟩ := List.mem_map.mp hmem
    exact Prod.ext rfl (ih original horiginal)
  rw [sortedMembers, hvalues]
  exact (sortedMembers_pairwise ms).insertionSort_eq

mutual

theorem sortKeys_sortKeys : ∀ v : Json, v.sortKeys.sortKeys = v.sortKeys
  | .null | .bool _ | .int _ | .float _ | .str _ => rfl
  | .arr items => by
      rw [sortKeys, sortKeys, sortItems_eq_map, sortItems_eq_map, List.map_map]
      exact congrArg arr (List.map_congr_left (sortKeys_sortKeys_items items))
  | .obj members => by
      rw [sortKeys_obj, sortKeys_obj]
      exact congrArg obj (sortedMembers_sortedMembers (sortKeys_sortKeys_members members))

theorem sortKeys_sortKeys_items : ∀ items : List Json,
    ∀ v ∈ items, v.sortKeys.sortKeys = v.sortKeys
  | [] => nofun
  | v :: rest => List.forall_mem_cons.mpr ⟨sortKeys_sortKeys v, sortKeys_sortKeys_items rest⟩

theorem sortKeys_sortKeys_members : ∀ members : List (String × Json),
    ∀ member ∈ members, member.2.sortKeys.sortKeys = member.2.sortKeys
  | [] => nofun
  | (_, v) :: rest =>
      List.forall_mem_cons.mpr ⟨sortKeys_sortKeys v, sortKeys_sortKeys_members rest⟩

end

theorem same_sortKeys {v : Json} (h : v.Plain) : same v.sortKeys v = true :=
  (same_iff_sortKeys (plain_sortKeys v h) h).mpr (sortKeys_sortKeys v)

/-! ## Another order -/

theorem Reordered.plain {v w : Json} (h : Reordered v w) (hv : v.Plain) : w.Plain := by
  induction h with
  | members hperm =>
      obtain ⟨hnames, hvalues⟩ := plain_obj_iff.mp hv
      exact plain_obj_iff.mpr ⟨(hperm.map Prod.fst).nodup_iff.mp hnames,
        fun member hmem => hvalues member (hperm.mem_iff.mpr hmem)⟩
  | item before after _ ih =>
      have hitems := plainItems_iff.mp hv
      refine plainItems_iff.mpr fun u hu => ?_
      rcases List.mem_append.mp hu with hu | hu
      · exact hitems u (List.mem_append_left _ hu)
      rcases List.mem_cons.mp hu with rfl | hu
      · exact ih (hitems _ (List.mem_append_right _ List.mem_cons_self))
      · exact hitems u (List.mem_append_right _ (List.mem_cons_of_mem _ hu))
  | member name before after _ ih =>
      obtain ⟨hnames, hvalues⟩ := plain_obj_iff.mp hv
      refine plain_obj_iff.mpr ⟨?_, fun member hmem => ?_⟩
      · rw [List.map_append, List.map_cons] at hnames ⊢
        exact hnames
      rcases List.mem_append.mp hmem with hmem | hmem
      · exact hvalues member (List.mem_append_left _ hmem)
      rcases List.mem_cons.mp hmem with rfl | hmem
      · exact ih (hvalues _ (List.mem_append_right _ List.mem_cons_self))
      · exact hvalues member (List.mem_append_right _ (List.mem_cons_of_mem _ hmem))
  | trans _ _ ih ih' => exact ih' (ih hv)

theorem Reordered.sortKeys_eq {v w : Json} (h : Reordered v w) (hv : v.Plain) :
    v.sortKeys = w.sortKeys := by
  induction h with
  | @members ms ms' hperm =>
      rw [sortKeys_obj, sortKeys_obj]
      refine congrArg obj (sortedMembers_eq_of_perm ?_ hv.1)
      rw [sortMembers_eq_map, sortMembers_eq_map]
      exact hperm.map _
  | item before after _ ih =>
      have hv := plainItems_iff.mp hv _ (List.mem_append_right _ List.mem_cons_self)
      rw [sortKeys, sortKeys, sortItems_eq_map, sortItems_eq_map, List.map_append, List.map_append,
        List.map_cons, List.map_cons, ih hv]
  | member name before after _ ih =>
      have hv := (plain_obj_iff.mp hv).2 _ (List.mem_append_right _ List.mem_cons_self)
      rw [sortKeys_obj, sortKeys_obj, sortedMembers, sortedMembers, sortMembers_eq_map,
        sortMembers_eq_map, List.map_append, List.map_append, List.map_cons, List.map_cons, ih hv]
  | trans h _ ih ih' => exact (ih hv).trans (ih' (h.plain hv))

/-! ## Members of objects that are sorted alike -/

theorem sortKeys_eq_str {v : Json} {s : String} : v.sortKeys = .str s ↔ v = .str s := by
  cases v <;> simp [sortKeys]

theorem sortKeys_eq_int {v : Json} {n : Int} : v.sortKeys = .int n ↔ v = .int n := by
  cases v <;> simp [sortKeys]

theorem exists_of_sortKeys_eq_obj {v : Json} {members : List (String × Json)}
    (h : v.sortKeys = obj members) : ∃ ms, v = obj ms := by
  cases v with
  | obj ms => exact ⟨ms, rfl⟩
  | _ => cases h

theorem names_of_sortKeys_eq {ms ms' : List (String × Json)}
    (h : (obj ms).sortKeys = (obj ms').sortKeys) : (ms.map Prod.fst).Perm (ms'.map Prod.fst) := by
  rw [sortKeys_obj, sortKeys_obj] at h
  have hperm := map_fst_sortedMembers ms
  rw [obj.inj h] at hperm
  exact hperm.symm.trans (map_fst_sortedMembers ms')

theorem lookup_of_sortKeys_eq {ms ms' : List (String × Json)}
    (h : (obj ms).sortKeys = (obj ms').sortKeys) (hnames : (ms.map Prod.fst).Nodup)
    (name : String) : (ms'.lookup name).map sortKeys = (ms.lookup name).map sortKeys := by
  have hnames' : (ms'.map Prod.fst).Nodup := (names_of_sortKeys_eq h).nodup_iff.mp hnames
  rw [← lookup_sortedMembers hnames, ← lookup_sortedMembers hnames']
  rw [sortKeys_obj, sortKeys_obj] at h
  rw [obj.inj h]

/-! ## The canonical text -/

/-- Hooks that let everything pass. -/
def plainHooks : DecodeHooks Unit := ⟨fun _ => .error (), fun _ => .ok (), ()⟩

theorem sortKeys_eq_of_canonical {v w : Json} (hv : v.Plain) (hw : w.Plain)
    (h : v.canonical = w.canonical) : v.sortKeys = w.sortKeys := by
  have hpairs : ∀ members : List (CodePoints × Decoded), (members.map Prod.fst).Nodup →
      plainHooks.pairs members = .ok () := fun _ _ => rfl
  obtain ⟨d, hd, hsorted⟩ := decodeJson_canonical hpairs hv
  obtain ⟨d', hd', hsorted'⟩ := decodeJson_canonical hpairs hw
  rw [h, hd'] at hd
  cases hd
  exact hsorted.symm.trans hsorted'

/-- Equal canonical texts, the same value. -/
theorem canonical_eq_iff {v w : Json} (hv : v.Plain) (hw : w.Plain) :
    v.canonical = w.canonical ↔ same v w = true := by
  rw [same_iff_sortKeys hv hw]
  exact ⟨sortKeys_eq_of_canonical hv hw, fun h => congrArg dumps h⟩

end Lib.Json
