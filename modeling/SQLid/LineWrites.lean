import SQLid.Service

/-!
# A write stays in its line

Whatever file is mapped, a value goes to its place in its own line or nowhere: the
check against the line length comes before the copy, for every length of the value.
-/
namespace SQLid
open Bytes (Text)
open Programs

namespace MemoryMapLinux

/-- Where something is mapped, it is the whole file at addresses that do not wrap. -/
def Placed (m : MemoryMapLinux) : Prop :=
  m.mapped ≠ 0 → m.fileSize = m.mapped ∧ m.mappedData + m.mapped ≤ 2 ^ 56

theorem placed_of_mapped {m : MemoryMapLinux} (h : m.mapped = 0) : m.Placed := fun hne => absurd h hne

/-- Any file, of whole lines or not, is placed once it is open. -/
theorem openFile_placed (os : Os) (file : ByteFile) (lineLength calls : Nat) :
    (finalState ((openFile os).run (closed file lineLength calls))).Placed := by
  have hne : (0 : Nat) ≠ mapFailed := by decide
  intro hmapped
  by_cases hs : file.size ≤ lineLength
  · cases ht : os.ftruncate calls (sizeMul lineLength 100) with
    | false => simp [openFile, close, closed, hne, hs, ftruncateTo, ht] at hmapped
    | true =>
        cases hm : os.mmap calls (sizeMul lineLength 100) with
        | none => simp [openFile, close, closed, hne, hs, ftruncateTo, mmapBytes, ht, hm] at hmapped
        | some addr =>
            have htop := (os.mmap_address _ _ _ hm).2
            simpa [openFile, close, closed, hne, hs, ftruncateTo, mmapBytes, ht, hm] using htop
  · cases hm : os.mmap calls file.size with
    | none => simp [openFile, close, closed, hne, hs, mmapBytes, hm] at hmapped
    | some addr =>
        have htop := (os.mmap_address _ _ _ hm).2
        simpa [openFile, close, closed, hne, hs, mmapBytes, hm] using htop

theorem expandFile_placed (os : Os) {m : MemoryMapLinux} (h : m.Placed) :
    (finalState ((expandFile os).run m)).Placed := by
  by_cases hdata : m.mappedData = 0
  · cases ht : os.ftruncate m.calls (sizeMul m.fileSize 2) with
    | false => simpa [expandFile, ftruncateTo, hdata, ht] using h
    | true =>
        cases hm : os.mmap m.calls (sizeMul m.fileSize 2) with
        | none => exact placed_of_mapped (by simp [expandFile, ftruncateTo, mmapBytes, hdata, ht, hm])
        | some addr =>
            have htop := (os.mmap_address _ _ _ hm).2
            intro _
            simpa [expandFile, ftruncateTo, mmapBytes, hdata, ht, hm] using htop
  · cases ht : os.ftruncate m.calls (sizeMul m.fileSize 2) with
    | false => exact placed_of_mapped (by simp [expandFile, ftruncateTo, hdata, ht])
    | true =>
        cases hm : os.mmap m.calls (sizeMul m.fileSize 2) with
        | none => exact placed_of_mapped (by simp [expandFile, ftruncateTo, mmapBytes, hdata, ht, hm])
        | some addr =>
            have htop := (os.mmap_address _ _ _ hm).2
            intro _
            simpa [expandFile, ftruncateTo, mmapBytes, hdata, ht, hm] using htop

section
variable {m : MemoryMapLinux} {l off a : Nat}

/-- A byte that can be touched at an offset of a line is the byte of the file there. -/
theorem Placed.lineStart (h : m.Placed) (hl : l < m.getMaxLine) (ho : off ≤ m.lineLength)
    (ha : m.lineStart l off = some a) {n : Nat} (hn : 0 < n) (hacc : m.Accessible a n) :
    a = m.mappedData + (l * m.lineLength + off) ∧ m.lineLength < 2 ^ 64 := by
  have hend := line_end_le hl
  obtain ⟨hlow, hhigh, -⟩ := hacc
  have hmapped : m.mapped ≠ 0 := by omega
  obtain ⟨hsize, htop⟩ := h hmapped
  unfold MemoryMapLinux.lineStart MemoryMapLinux.findLine at ha
  split at ha
  · cases ha
  · have hmul : sizeMul l m.lineLength = l * m.lineLength := sizeMul_eq (by omega)
    have hcur : sizeAdd m.mappedData (l * m.lineLength) = m.mappedData + l * m.lineLength :=
      sizeAdd_eq (by omega)
    dsimp only at ha
    rw [hmul, hcur] at ha
    split at ha
    · rw [Option.map_some, sizeAdd_eq (by omega), Option.some.injEq] at ha
      exact ⟨by omega, by omega⟩
    · cases ha

/-- A writer changes the bytes behind its offset, or none: also when it throws. -/
theorem Placed.writeBytes (h : m.Placed) (hl : l < m.getMaxLine) (ho : off ≤ m.lineLength)
    (msg bs : Text) :
    finalState ((MemoryMapLinux.writeBytes msg l off bs).run m) = m ∨
      (off + bs.length ≤ m.lineLength ∧
        finalState ((MemoryMapLinux.writeBytes msg l off bs).run m) =
          m.setBytes (l * m.lineLength + off) bs) := by
  unfold MemoryMapLinux.writeBytes
  rw [run_bind_ok (EStateM.run_get m)]
  split
  · exact .inl rfl
  · next hlen =>
    unfold MemoryMapLinux.store
    dsimp only
    rw [run_bind_ok (EStateM.run_get m)]
    cases ha : m.lineStart l off with
    | none =>
        dsimp only
        split <;> exact .inl rfl
    | some a =>
        dsimp only
        split
        · exact .inl rfl
        · next hbs =>
          split
          · next hacc =>
            have hpos := List.length_pos_iff.mpr hbs
            obtain ⟨haddr, hline⟩ := h.lineStart hl ho ha hpos hacc
            rw [sizeSub_eq ho hline] at hlen
            refine .inr ⟨by omega, ?_⟩
            rw [EStateM.run_set, finalState_ok, haddr, Nat.add_sub_cancel_left]
            rfl
          · exact .inl rfl

end
end MemoryMapLinux

namespace Tabble

theorem run_onStorage_final {α : Type} (x : EStateM Fault MemoryMap α) (t : Tabble) :
    finalState ((onStorage x).run t) = { t with storage := finalState (x.run t.storage) } := by
  cases hx : x.run t.storage with
  | ok a m => rw [run_onStorage_ok hx, finalState_ok, finalState_ok]
  | error e m => rw [run_onStorage_error hx, finalState_error, finalState_error]

theorem run_onCore_final {α : Type} (x : EStateM Fault MemoryMapLinux α) (m : MemoryMap) :
    finalState ((MemoryMap.onCore x).run m) = m.withCore (finalState (x.run m.core)) := by
  cases hx : x.run m.core with
  | ok a core => rw [MemoryMap.run_onCore_ok hx, finalState_ok, finalState_ok]
  | error e core => rw [MemoryMap.run_onCore_error hx, finalState_error, finalState_error]

section
variable {t : Tabble} {l : Nat}

theorem writeInfo_touches (hp : t.storage.core.Placed) (os : Os) (hl : l < t.maxLines) {off : Nat}
    (ho : 1 ≤ off) (hend : off ≤ t.storage.core.lineLength) (v : VariantTypes) :
    Touches (InLine t.storage.core.lineLength l) t
      (finalState ((onStorage (MemoryMap.writeInfo os l off v)).run t)) := by
  have hlog := logged_touches (InLine t.storage.core.lineLength l) (writeCall_line l v) hl
  have hcore : (t.storage.logged (writeCall l v)).core = t.storage.core := rfl
  rw [writeInfo_eq, run_onStorage_final, MemoryMap.run_write_inside hl, run_onCore_final, hcore]
  rcases hp.writeBytes hl hend (tooLong v) v.bytes with hsame | ⟨hfit, hset⟩
  · rw [hsame]
    exact hlog
  · rw [hset]
    apply hlog.trans
    exact (withBytes_touches _ _ _).mono fun k hk => inLine_of_column ho hfit hk

theorem Touches.placed {P : Nat → Prop} {t' : Tabble} (h : Touches P t t')
    (hp : t.storage.core.Placed) : t'.storage.core.Placed := by
  obtain ⟨b, hb, -⟩ := h.core
  rw [hb]
  exact hp

/-- The loop of `update` touches the bytes behind the flag of its line only, wherever it ends. -/
theorem updateFrom_touches (hp : t.storage.core.Placed) (os : Os) (hl : l < t.maxLines)
    (values : List VariantTypes) {columns : List Column}
    (hc : ∀ c ∈ columns, 1 ≤ c.offset ∧ c.offset ≤ t.storage.core.lineLength) (i : Nat) :
    Touches (InLine t.storage.core.lineLength l) t
      (finalState ((updateFrom os values l i columns).run t)) := by
  induction columns generalizing t i with
  | nil => exact .refl _ t
  | cons c columns ih =>
    have hone := fun v => writeInfo_touches hp os hl (hc c (by simp)).1 (hc c (by simp)).2 v
    unfold updateFrom
    cases hv : values[i]? with
    | none => exact .refl _ t
    | some v =>
        dsimp only
        specialize hone v
        cases hw : (onStorage (MemoryMap.writeInfo os l c.offset v)).run t with
        | error e t₁ =>
            rw [run_bind_error hw]
            rwa [hw] at hone
        | ok u t₁ =>
            rw [run_bind_ok hw]
            rw [hw, finalState_ok] at hone
            have hrest := ih (hone.placed hp) (by rwa [hone.maxLines])
              (fun d hd => by rw [hone.lineLength]; exact hc d (by simp [hd])) (i + 1)
            rw [hone.lineLength] at hrest
            exact hone.trans hrest

/-- `update` keeps to its line whether it returns or throws: no flag changes, and no byte
of another row. -/
theorem update_stays_in_line (hoff : OffsetsFrom 1 t.info.columns)
    (hlen : t.info.lineLength = 1 + sizeSum t.info.columns)
    (hline : t.storage.core.lineLength = t.info.lineLength) (hp : t.storage.core.Placed) (os : Os)
    (hl : l < t.storage.getMaxLines) (values : List VariantTypes) {columns : List Column}
    (hc : ∀ c ∈ columns, c ∈ t.info.columns) (index : Nat) :
    let t' := finalState ((update os values columns l index).run t)
    t'.storage.core.file.size = t.storage.core.file.size ∧
      (∀ k, ¬ (l * t.info.lineLength + 1 ≤ k ∧ k < (l + 1) * t.info.lineLength) →
        t'.storage.core.file.byte k = t.storage.core.file.byte k) ∧
      (∀ j, t'.flag j = t.flag j) ∧
      ∀ j, j ≠ l → ∀ c ∈ t.info.columns, t'.cell j c = t.cell j c := by
  have hbounds : ∀ c ∈ t.info.columns, 1 ≤ c.offset ∧ c.offset + c.size ≤ t.info.lineLength := by
    intro c hmem
    rw [hlen]
    exact hoff.bounds c hmem
  rw [run_update]
  have htouch := updateFrom_touches (t := t.withHistory (t.history ++ [.update l])) hp os hl values
    (fun c hmem => by
      have := hbounds c (hc c hmem)
      change 1 ≤ c.offset ∧ c.offset ≤ t.storage.core.lineLength
      omega) index
  have hcore : (t.withHistory (t.history ++ [.update l])).storage.core.lineLength =
    t.info.lineLength := hline
  rw [hcore] at htouch
  generalize finalState ((updateFrom os values l index columns).run
    (t.withHistory (t.history ++ [.update l]))) = t' at htouch ⊢
  dsimp only
  refine ⟨?_, fun k hk => ?_, fun j => ?_, fun j hj c hmem => ?_⟩
  · obtain ⟨b, hb, -⟩ := htouch.core
    rw [hb]
    rfl
  · apply htouch.byte
    rintro ⟨hlow, hhigh⟩
    rw [Nat.succ_mul] at hk
    omega
  · apply htouch.flag
    rw [hcore]
    exact not_inLine_flag _ _ _
  · apply htouch.cell
    intro k hlow hhigh
    have hin := hbounds c hmem
    exact not_inLine_of_ne hj (inLine_of_column hin.1 hin.2 ⟨hlow, hhigh⟩)

end

/-! Tables that are opened have their storage placed. -/

def StoragePlaced (t : Tabble) : Prop := t.storage.core.Placed

/-- The program leaves a placed storage placed. -/
abbrev KeepsPlaced {α : Type} (x : EStateM Fault Tabble α) : Prop :=
  Triple StoragePlaced x (fun _ => StoragePlaced) (fun _ => StoragePlaced)

theorem expand_placed (os : Os) (writer : Option Nat) :
    KeepsPlaced (onStorage (MemoryMap.expand os writer)) := by
  have hexpand : Triple (fun m : MemoryMap => m.core.Placed) (MemoryMap.expand os writer)
      (fun _ m => m.core.Placed) (fun _ m => m.core.Placed) := by
    unfold MemoryMap.expand
    refine Triple.bind (Q := fun _ m => m.core.Placed) (triple_modify fun _ h => h) fun _ => ?_
    apply triple_get
    intro m _
    apply triple_ite
    · intro _ m hm
      exact .error hm
    · intro _
      dsimp only
      refine Triple.bind (Q := fun _ m => m.core.Placed) (triple_modify fun _ h => h) fun _ => ?_
      refine Triple.bind (Q := fun _ m => m.core.Placed) ?_ fun _ => triple_modify fun _ h => h
      apply triple_zoom
      intro m hm
      apply post_of_final (P := MemoryMapLinux.Placed)
      exact MemoryMapLinux.expandFile_placed os hm
  exact triple_zoom fun t ht => hexpand t.storage ht

theorem isActive_placed (i : Nat) : KeepsPlaced (onStorage (MemoryMap.isActive i)) := by
  apply (reads_isActive i).triple
  rintro t t' h ⟨l, rfl⟩
  exact h

theorem skipActive_placed (n ind : Nat) : KeepsPlaced (skipActive n ind) := by
  induction n generalizing ind with
  | zero => exact triple_pure fun _ h => h
  | succ n ih =>
    apply (isActive_placed ind).bind
    intro b
    cases b with
    | true => exact ih (ind + 1)
    | false => exact triple_pure fun _ h => h

theorem countActive_placed (n i : Nat) : KeepsPlaced (countActive n i) := by
  induction n generalizing i with
  | zero => exact triple_pure fun _ h => h
  | succ n ih =>
    apply (isActive_placed i).bind
    intro b
    cases b with
    | true => exact Triple.bind (Q := fun _ => StoragePlaced) (triple_modify fun _ h => h) fun _ => ih (i + 1)
    | false => exact ih (i + 1)

theorem pushHoles_placed (n i : Nat) : KeepsPlaced (pushHoles n i) := by
  induction n generalizing i with
  | zero => exact triple_pure fun _ h => h
  | succ n ih =>
    apply (isActive_placed i).bind
    intro b
    cases b with
    | true => exact ih (i + 1)
    | false => exact Triple.bind (Q := fun _ => StoragePlaced) (triple_modify fun _ h => h) fun _ => ih (i + 1)

theorem analyzeHoles_placed (os : Os) : KeepsPlaced (analyzeHoles os) := by
  unfold analyzeHoles
  apply triple_get
  intro t _
  apply (skipActive_placed _ _).bind
  intro ind
  have hrest : KeepsPlaced (do
      countActive (← get).storage.getMaxLines 0
      pushHoles (← get).freeId 0) :=
    triple_get fun _ _ => (countActive_placed _ _).bind fun _ => triple_get fun _ _ => pushHoles_placed _ _
  apply triple_ite
  · intro _
    exact (expand_placed os none).bind fun _ => hrest
  · intro _
    exact hrest

/-- Whatever the constructor makes of a file, its storage is placed. -/
theorem openFile_placed (os : Os) (info : TabbleInfo) (file : ByteFile) (calls : Nat) :
    (finalState (openFile os info file calls)).storage.core.Placed := by
  have hopen : Triple (· = closed info file calls)
      (onStorage (MemoryMap.onCore (MemoryMapLinux.openFile os)))
      (fun _ => StoragePlaced) (fun _ => StoragePlaced) := by
    rintro t rfl
    apply post_of_final
    rw [run_onStorage_final, run_onCore_final]
    exact MemoryMapLinux.openFile_placed os file info.lineLength calls
  exact (hopen.bind fun _ => analyzeHoles_placed os).final rfl

/-! Two texts side by side. -/

/-- Columns `a` and `b` of three bytes each. -/
def textsInfo : TabbleInfo where
  lineLength := 7
  columnsNumber := 2
  columns := [⟨CppText.str "a", 1, .string, 3⟩, ⟨CppText.str "b", 4, .string, 3⟩]
  columnsMap := [(CppText.str "a", 0), (CppText.str "b", 1)]

/-- Opened from a file that ends inside its third line. -/
def textsTorn : Tabble := finalState (openFile .reliable textsInfo ⟨20, fun _ => 1⟩ 0)

/-- `b` first, then a value too long for the rest of the line at `a`. -/
def textsStopped : EStateM.Result Fault Tabble Unit :=
  (update .reliable [.string (CppText.str "xy"), .string (CppText.str "toolong")]
    textsInfo.columns.reverse 1 0).run textsTorn

/-- The update throws after it has written to its line. -/
theorem update_stays_in_line_sample : isOk textsStopped = false ∧
    (finalState textsStopped).storage.core.file.byte 11 = 120 ∧
    ∀ j, (finalState textsStopped).flag j = textsTorn.flag j := by
  have hinfo : textsTorn.info = textsInfo := by decide +kernel
  have hline : textsTorn.storage.core.lineLength = textsInfo.lineLength := by decide +kernel
  have hoff : OffsetsFrom 1 textsInfo.columns := ⟨rfl, rfl, trivial⟩
  have hplaced : textsTorn.storage.core.Placed := by
    unfold textsTorn
    exact openFile_placed _ _ _ _
  have hstay := update_stays_in_line (t := textsTorn) (l := 1) (by rw [hinfo]; exact hoff)
    (by rw [hinfo]; rfl) (by rw [hinfo]; exact hline) hplaced .reliable (by decide +kernel)
    [.string (CppText.str "xy"), .string (CppText.str "toolong")]
    (fun c (hc : c ∈ textsInfo.columns.reverse) => by rw [hinfo]; exact List.mem_reverse.mp hc) 0
  exact ⟨by decide +kernel, by decide +kernel, hstay.2.2.1⟩

end Tabble
end SQLid
