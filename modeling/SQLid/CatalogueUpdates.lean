import SQLid.NewTables

/-!
# Updates of the catalogue

What a change of one database does to the two sides of the catalogue: the registry gets
another entry, the disk another directory.
-/
namespace SQLid
open Bytes (Text)
open CppText (str)
open FileTree (Node Grown look)
open Programs

section memory
variable {cwd R : Loc} {s : System Disk} {live : FileName → Option Tables} {name : FileName} {id : Nat}
  {base : DataBase} {tables : Tables}

/-- The registry does not depend on the disk. -/
theorem InMemory.onDisk (h : InMemory cwd R s live) (d : Disk) : InMemory cwd R { s with disk := d } live :=
  ⟨h.names, h.named, h.base, h.slots⟩

theorem InMemory.lookup_none (h : InMemory cwd R s live) (hnone : live name = none) :
    s.nameBase.lookup name.text = none := by
  cases hid : s.nameBase.lookup name.text with
  | none => rfl
  | some id =>
      obtain ⟨other, htext, hsome⟩ := h.named _ id hid
      obtain rfl := FileName.text_injective htext
      rw [hnone] at hsome
      cases hsome

/-- A registered name is that of a live database. -/
theorem InMemory.found (h : InMemory cwd R s live) {text : Text} (hid : s.nameBase.lookup text = some id) :
    ∃ (name : FileName) (tables : Tables) (base : DataBase), text = name.text ∧ live name = some tables ∧
      s.bases[id]? = some (some base) ∧ OpenBase base tables ∧ Straight cwd base.absoluteWay (R ++ [name]) ∧
        base.dataBaseName = name.text := by
  obtain ⟨name, rfl, hsome⟩ := h.named text id hid
  obtain ⟨tables, htables⟩ := Option.isSome_iff_exists.mp hsome
  obtain ⟨id', base, hid', hbase, hopen, hway⟩ := h.base name tables htables
  obtain rfl : id = id' := by
    rw [hid, Option.some.injEq] at hid'
    exact hid'
  obtain ⟨base', hbase', hname⟩ := h.names name.text id hid
  rw [hbase, Option.some.injEq, Option.some.injEq] at hbase'
  exact ⟨name, tables, base, rfl, htables, hbase, hopen, hway, hbase' ▸ hname⟩

theorem InMemory.slot_lt (h : InMemory cwd R s live) {text : Text} (hid : s.nameBase.lookup text = some id) :
    id < s.bases.length := by
  obtain ⟨base, hbase, -⟩ := h.names text id hid
  exact (List.getElem?_eq_some_iff.mp hbase).1

theorem InMemory.registered (h : InMemory cwd R s live) (hnone : live name = none)
    (hname : base.dataBaseName = name.text) (hopen : OpenBase base tables)
    (hway : Straight cwd base.absoluteWay (R ++ [name])) :
    InMemory cwd R (s.registered name.text base) (Function.update live name (some tables)) := by
  have hlookup (key : Text) : (s.registered name.text base).nameBase.lookup key =
      if key = name.text then some s.bases.length else s.nameBase.lookup key := by
    change (insertNew s.nameBase name.text s.bases.length).lookup key = _
    rw [lookup_insertNew]
    split_ifs with hkey
    · rw [hkey, h.lookup_none hnone, Option.none_or]
    · rw [Option.or_none]
  refine ⟨h.names.registered hname, fun key id hid => ?_, fun other tables' htables => ?_, fun id base' hbase => ?_⟩
  · rw [hlookup] at hid
    split_ifs at hid with hkey
    · exact ⟨name, hkey, by simp⟩
    · obtain ⟨other, hother, hsome⟩ := h.named key id hid
      refine ⟨other, hother, ?_⟩
      rw [Function.update_of_ne fun heq => hkey (hother.trans (congrArg FileName.text heq))]
      exact hsome
  · by_cases heq : other = name
    · subst heq
      rw [Function.update_self, Option.some.injEq] at htables
      subst htables
      refine ⟨s.bases.length, base, ?_, List.getElem?_concat_length, hopen, hway⟩
      rw [hlookup, if_pos rfl]
    · rw [Function.update_of_ne heq] at htables
      obtain ⟨id, base', hid, hbase, hopen', hway'⟩ := h.base other tables' htables
      refine ⟨id, base', ?_, (List.getElem?_append_left (h.slot_lt hid)).trans hbase, hopen', hway'⟩
      rw [hlookup, if_neg fun htext => heq (FileName.text_injective htext)]
      exact hid
  · have hslots : (s.bases ++ [some base])[id]? = some (some base') := hbase
    rw [hlookup]
    by_cases hlt : id < s.bases.length
    · rw [List.getElem?_append_left hlt] at hslots
      have hid := h.slots id base' hslots
      rw [if_neg, hid]
      intro htext
      rw [htext, h.lookup_none hnone] at hid
      cases hid
    · rw [List.getElem?_append_right (Nat.le_of_not_lt hlt), List.getElem?_singleton] at hslots
      split_ifs at hslots with hzero
      rw [Option.some.injEq, Option.some.injEq] at hslots
      subst hslots
      rw [if_pos hname, Option.some.injEq]
      omega

/-- The database in a slot is changed, or another one put in its place. -/
theorem InMemory.setSlot (h : InMemory cwd R s live) (hid : s.nameBase.lookup name.text = some id)
    (hname : base.dataBaseName = name.text) (hopen : OpenBase base tables)
    (hway : Straight cwd base.absoluteWay (R ++ [name])) :
    InMemory cwd R { s with bases := s.bases.set id (some base) } (Function.update live name (some tables)) := by
  refine ⟨h.names.setSlot (by rwa [hname]), fun key id' hid' => ?_, fun other tables' htables => ?_,
    fun id' base' hbase => ?_⟩
  · obtain ⟨other, hother, hsome⟩ := h.named key id' hid'
    refine ⟨other, hother, ?_⟩
    by_cases heq : other = name
    · rw [heq, Function.update_self]
      rfl
    · rw [Function.update_of_ne heq]
      exact hsome
  · by_cases heq : other = name
    · subst heq
      rw [Function.update_self, Option.some.injEq] at htables
      subst htables
      exact ⟨id, base, hid, List.getElem?_set_self (h.slot_lt hid), hopen, hway⟩
    · rw [Function.update_of_ne heq] at htables
      obtain ⟨id', base', hid', hbase, hopen', hway'⟩ := h.base other tables' htables
      refine ⟨id', base', hid', ?_, hopen', hway'⟩
      have hne : id ≠ id' := by
        rintro rfl
        exact heq (FileName.text_injective (h.names.id_unique hid' hid))
      change (s.bases.set id (some base))[id']? = some (some base')
      rwa [List.getElem?_set_ne hne]
  · have hslots : (s.bases.set id (some base))[id']? = some (some base') := hbase
    change s.nameBase.lookup base'.dataBaseName = some id'
    by_cases heq : id = id'
    · subst heq
      rw [List.getElem?_set_self (h.slot_lt hid), Option.some.injEq, Option.some.injEq] at hslots
      rw [← hslots, hname]
      exact hid
    · rw [List.getElem?_set_ne heq] at hslots
      exact h.slots id' base' hslots

theorem InMemory.dropped (h : InMemory cwd R s live) (hid : s.nameBase.lookup name.text = some id) :
    InMemory cwd R (s.dropped name.text id) (Function.update live name none) := by
  have hlookup (key : Text) : (s.dropped name.text id).nameBase.lookup key =
      if key = name.text then none else s.nameBase.lookup key := System.lookup_unregister s.nameBase name.text key
  refine ⟨h.names.dropped hid, fun key id' hid' => ?_, fun other tables' htables => ?_, fun id' base' hbase => ?_⟩
  · rw [hlookup] at hid'
    split_ifs at hid' with hkey
    obtain ⟨other, hother, hsome⟩ := h.named key id' hid'
    refine ⟨other, hother, ?_⟩
    rw [Function.update_of_ne fun heq => hkey (hother.trans (congrArg FileName.text heq))]
    exact hsome
  · have hne : other ≠ name := by
      rintro rfl
      rw [Function.update_self] at htables
      cases htables
    rw [Function.update_of_ne hne] at htables
    obtain ⟨id', base', hid', hbase, hopen, hway⟩ := h.base other tables' htables
    have htext : other.text ≠ name.text := fun htext => hne (FileName.text_injective htext)
    refine ⟨id', base', ?_, ?_, hopen, hway⟩
    · rw [hlookup, if_neg htext]
      exact hid'
    · change (s.bases.set id none)[id']? = some (some base')
      have hslot : id ≠ id' := by
        rintro rfl
        exact htext (h.names.id_unique hid' hid)
      rwa [List.getElem?_set_ne hslot]
  · have hslots : (s.bases.set id none)[id']? = some (some base') := hbase
    have hne : id ≠ id' := by
      rintro rfl
      rw [List.getElem?_set_self (h.slot_lt hid)] at hslots
      cases hslots
    rw [List.getElem?_set_ne hne] at hslots
    have hid' := h.slots id' base' hslots
    rw [hlookup, if_neg, hid']
    intro htext
    rw [htext, hid, Option.some.injEq] at hid'
    exact hne hid'

end memory

section disk
variable {R : Loc} {area : FileName} {d d' : Disk} {st : Catalogue}

/-- Two names in the root do not touch one another. -/
theorem not_below_other {name other : FileName} (h : other ≠ name) (rel : Loc) :
    ¬ R ++ [name] <+: R ++ [other] ++ rel := by
  have hapart := System.names_apart (R := R) h.symm [] rel
  rwa [List.append_nil] at hapart

/-- One directory is made, changed or removed. -/
theorem OnDisk.setLive (h : OnDisk R area d st) {name : FileName} (hname : name ≠ area) (hg : Grown d')
    (hother : ∀ loc, ¬ R ++ [name] <+: loc → look d' loc = look d loc) {entry : Option Tables}
    (hsome : ∀ tables, entry = some tables → look d' (R ++ [name]) = some .dir ∧ StoredBase d' (R ++ [name]) tables)
    (hdir : look d' (R ++ [name]) = some .dir → entry.isSome) : OnDisk R area d' (st.setLive name entry) := by
  have hrest {other : FileName} (hne : other ≠ name) (rel : Loc) :
      look d' (R ++ [other] ++ rel) = look d (R ++ [other] ++ rel) := hother _ (not_below_other hne rel)
  have hself {other : FileName} (hne : other ≠ name) : look d' (R ++ [other]) = look d (R ++ [other]) := by
    have hnil := hrest hne []
    rwa [List.append_nil] at hnil
  have hcopy (b : FileName) : look d' (R ++ [area] ++ [b]) = look d (R ++ [area] ++ [b]) := hrest hname.symm [b]
  refine ⟨hg, (hself hname.symm).trans h.place, ?_, fun other tables htables => ?_, fun other harea hthere => ?_,
    fun b tables hb => ?_, fun b hthere => h.copies b ((hcopy b).symm.trans hthere)⟩
  · rw [Archive.Store.live_setLive_other hname.symm]
    exact h.free
  · by_cases heq : other = name
    · subst heq
      rw [Archive.Store.live_setLive_self] at htables
      exact hsome tables htables
    · rw [Archive.Store.live_setLive_other heq] at htables
      obtain ⟨hthere, hstored⟩ := h.base other tables htables
      exact ⟨(hself heq).trans hthere, hstored.congr fun rel _ => hrest heq rel⟩
  · by_cases heq : other = name
    · subst heq
      rw [Archive.Store.live_setLive_self]
      exact hdir hthere
    · rw [Archive.Store.live_setLive_other heq]
      exact h.only other harea ((hself heq).symm.trans hthere)
  · obtain ⟨hthere, hstored⟩ := h.copy b tables hb
    refine ⟨(hcopy b).trans hthere, hstored.congr fun rel _ => ?_⟩
    rw [List.append_assoc (R ++ [area])]
    exact hrest hname.symm ([b] ++ rel)

/-- A copy is taken. -/
theorem OnDisk.saved (h : OnDisk R area d st) {name b : FileName} {tables : Tables} (htables : st.live name = some tables)
    (hnone : st.archive b = none) (hg : Grown d') (hdir : look d' (R ++ [area] ++ [b]) = some .dir)
    (hcopy : ∀ rel, look d' (R ++ [area] ++ [b] ++ rel) = look d (R ++ [name] ++ rel))
    (hother : ∀ loc, ¬ R ++ [area] ++ [b] <+: loc → look d' loc = look d loc) :
    OnDisk R area d' { st with archive := Function.update st.archive b (some tables) } := by
  have hne {other : FileName} (hlive : ∃ tables, st.live other = some tables) : other ≠ area := by
    rintro rfl
    obtain ⟨tables, hlive⟩ := hlive
    rw [h.free] at hlive
    cases hlive
  have hrest {other : FileName} (harea : other ≠ area) (rel : Loc) :
      look d' (R ++ [other] ++ rel) = look d (R ++ [other] ++ rel) := by
    refine hother _ fun hin => ?_
    rw [List.append_assoc] at hin
    exact System.names_apart harea.symm [b] rel (by rwa [List.append_assoc])
  have hself {other : FileName} (harea : other ≠ area) : look d' (R ++ [other]) = look d (R ++ [other]) := by
    have hnil := hrest harea []
    rwa [List.append_nil] at hnil
  have hapart {b' : FileName} (heq : b' ≠ b) (rel : Loc) :
      look d' (R ++ [area] ++ [b'] ++ rel) = look d (R ++ [area] ++ [b'] ++ rel) :=
    hother _ (not_below_other heq rel)
  have hcopySelf {b' : FileName} (heq : b' ≠ b) : look d' (R ++ [area] ++ [b']) = look d (R ++ [area] ++ [b']) := by
    have hnil := hapart heq []
    rwa [List.append_nil] at hnil
  refine ⟨hg, ?_, h.free, fun other tables' hlive => ?_, fun other harea hthere => ?_, fun b' tables' hb => ?_,
    fun b' hthere => ?_⟩
  · refine (hother _ fun hin => ?_).trans h.place
    have hlength := hin.length_le
    simp at hlength
  · have harea := hne ⟨tables', hlive⟩
    obtain ⟨hthere, hstored⟩ := h.base other tables' hlive
    exact ⟨(hself harea).trans hthere, hstored.congr fun rel _ => hrest harea rel⟩
  · exact h.only other harea ((hself harea).symm.trans hthere)
  · by_cases heq : b' = b
    · subst heq
      have hb' : Function.update st.archive b' (some tables) b' = some tables' := hb
      rw [Function.update_self, Option.some.injEq] at hb'
      subst hb'
      exact ⟨hdir, (h.base name tables htables).2.congr fun rel _ => hcopy rel⟩
    · have hb' : Function.update st.archive b (some tables) b' = some tables' := hb
      rw [Function.update_of_ne heq] at hb'
      obtain ⟨hthere, hstored⟩ := h.copy b' tables' hb'
      exact ⟨(hcopySelf heq).trans hthere, hstored.congr fun rel _ => hapart heq rel⟩
  · change (Function.update st.archive b (some tables) b').isSome
    by_cases heq : b' = b
    · rw [heq, Function.update_self]
      rfl
    · rw [Function.update_of_ne heq]
      exact h.copies b' ((hcopySelf heq).symm.trans hthere)

end disk
end SQLid
