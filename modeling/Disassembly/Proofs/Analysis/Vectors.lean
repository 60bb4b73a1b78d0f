import Disassembly.Proofs.Analysis.Footprint
import Disassembly.Proofs.Analysis.Threading
import Disassembly.Proofs.Store.Reachable

/-!
The walks from the interrupt vectors. They act on one store, each on what the walks before it have
left. The reset state is put into the record of the reset target before the first of them; the walk
from there begins in that state if no instruction visited before covers the target or the byte
before it. Otherwise the instruction that owns the byte before the target is taken for the one that
was executed last, and the walk begins with its context.
-/
namespace Disassembly

namespace Store

variable {s t : Store}

section Reading

/-- What stands in a vector, if both bytes of its word are in the image. -/
def vector? (s : Store) (name : String) (address : Int) : Option VectorReading :=
  (s.fileOffset? address).bind fun place =>
    if s.Contains (place + 1) then
      some (match s.fileOffset? (s.word place) with
        | some offset => .inside ⟨name, address, s.word place, offset⟩
        | none => .outside name (s.word place))
    else none

/-- The vectors whose targets lie in the image. -/
def vectorEntries (s : Store) : List VectorEntry :=
  (vectorTable.filterMap fun v => s.vector? v.1 v.2).filterMap VectorReading.entry?

theorem readVector_eq (s : Store) (name : String) (address : Int) :
    s.readVector name address = .ok (s.vector? name address) := by
  unfold readVector vector?
  cases hplace : s.fileOffset? address with
  | none => rfl
  | some place =>
    have hstart := contains_of_fileOffset? hplace
    by_cases hend : s.Contains (place + 1)
    · have hsize := hend.2
      have hword : s.wordAt place = .ok (s.word place) := wordAt_of_le hstart.1 (by omega)
      simp only [hend, not_true_eq_false, if_false, if_true, Option.bind_some]
      rw [hword]
      cases htarget : s.fileOffset? (s.word place) with
      | none => simp only [ok_bind, htarget]; rfl
      | some offset => simp only [ok_bind, htarget]; rfl
    · simp only [hend, not_false_eq_true, if_true, if_false, Option.bind_some]
      rfl

theorem readVectorsOf_eq (s : Store) (table : List (String × Int)) :
    s.readVectorsOf table = .ok (table.filterMap fun v => s.vector? v.1 v.2) := by
  induction table with
  | nil => rfl
  | cons v rest ih =>
    obtain ⟨name, address⟩ := v
    unfold readVectorsOf
    rw [readVector_eq, ok_bind, ih]
    cases hv : s.vector? name address with
    | none => simp only [List.filterMap_cons, hv]; rfl
    | some reading => simp only [List.filterMap_cons, hv]; rfl

theorem vector?_eq_inside_iff {name : String} {address : Int} {e : VectorEntry} :
    s.vector? name address = some (.inside e) ↔
      (name, address) = (e.name, e.address) ∧ ∃ place, s.fileOffset? e.address = some place ∧
        s.Contains (place + 1) ∧ e.target = s.word place ∧
          s.fileOffset? e.target = some e.offset := by
  unfold vector?
  rw [Option.bind_eq_some_iff]
  constructor
  · rintro ⟨place, hplace, hreading⟩
    split at hreading
    · next hend =>
      cases htarget : s.fileOffset? (s.word place) with
      | none => simp [htarget] at hreading
      | some offset =>
        rw [htarget] at hreading
        obtain rfl := VectorReading.inside.inj (Option.some.inj hreading)
        exact ⟨rfl, place, hplace, hend, rfl, htarget⟩
    · cases hreading
  · rintro ⟨hname, place, hplace, hend, htarget, hoffset⟩
    obtain ⟨rfl, rfl⟩ := Prod.mk.inj hname
    rw [htarget] at hoffset
    refine ⟨place, hplace, ?_⟩
    rw [if_pos hend, hoffset, ← htarget]

/-- The entries are the vectors of the table that have their word in the image and lead into it. -/
theorem mem_vectorEntries_iff {e : VectorEntry} :
    e ∈ s.vectorEntries ↔ (e.name, e.address) ∈ vectorTable ∧
      ∃ place, s.fileOffset? e.address = some place ∧ s.Contains (place + 1) ∧
        e.target = s.word place ∧ s.fileOffset? e.target = some e.offset := by
  have hentry (reading : VectorReading) : reading.entry? = some e ↔ reading = .inside e := by
    cases reading with
    | inside f => simp [VectorReading.entry?]
    | outside name target => simp [VectorReading.entry?]
  simp only [vectorEntries, List.mem_filterMap, hentry, exists_eq_right, vector?_eq_inside_iff]
  constructor
  · rintro ⟨v, hv, hnamed, hword⟩
    rw [← hnamed]
    exact ⟨hv, hword⟩
  · rintro ⟨hv, hword⟩
    exact ⟨_, hv, rfl, hword⟩

/-- Entries come from the table, and their targets are words of the image that lead into it. -/
theorem mem_vectorEntries {e : VectorEntry} (he : e ∈ s.vectorEntries) :
    (e.name, e.address) ∈ vectorTable ∧ (∃ place, e.target = s.word place) ∧
      s.fileOffset? e.target = some e.offset := by
  obtain ⟨hv, place, -, -, htarget, hoffset⟩ := mem_vectorEntries_iff.1 he
  exact ⟨hv, ⟨place, htarget⟩, hoffset⟩

theorem contains_of_mem_vectorEntries {e : VectorEntry} (he : e ∈ s.vectorEntries) :
    s.Contains e.offset :=
  contains_of_fileOffset? (mem_vectorEntries he).2.2

end Reading

section Seeding

/-- Some entry is for the reset and leads to this offset. -/
def IsResetTarget (entries : List VectorEntry) (i : Int) : Prop :=
  ∃ e ∈ entries, e.name = resetName ∧ e.offset = i

instance (entries : List VectorEntry) (i : Int) : Decidable (IsResetTarget entries i) :=
  inferInstanceAs (Decidable (∃ e ∈ entries, _))

/-- The second store is the first with the reset state at the reset target, up to its labels. -/
structure Seeded (entries : List VectorEntry) (s t : Store) : Prop where
  rom : t.rom = s.rom
  valid : t.Valid
  cell : ∀ i, s.Contains i → t.cell i =
    if IsResetTarget entries i then (s.cell i).setContext .emulation else s.cell i

namespace Seeded

variable {u : Store} {e : VectorEntry} {entries : List VectorEntry}

theorem contains (h : Seeded entries s t) {i : Int} : t.Contains i ↔ s.Contains i :=
  contains_of_rom h.rom

theorem nil (hs : s.Valid) : Seeded [] s s := by
  refine ⟨rfl, hs, fun i _ => ?_⟩
  rw [if_neg (by simp [IsResetTarget])]

/-- Entries are seeded one after the other. -/
theorem cons (h : Seeded [e] s t) (k : Seeded entries t u) : Seeded (e :: entries) s u := by
  refine ⟨k.rom.trans h.rom, k.valid, fun i hi => ?_⟩
  rw [k.cell i (h.contains.2 hi), h.cell i hi]
  have hsplit : IsResetTarget (e :: entries) i ↔
      IsResetTarget [e] i ∨ IsResetTarget entries i := by
    simp [IsResetTarget]
  by_cases hrest : IsResetTarget entries i
  · rw [if_pos hrest, if_pos (hsplit.2 (Or.inr hrest))]
    split
    · rfl
    · rfl
  · rw [if_neg hrest]
    by_cases he : IsResetTarget [e] i
    · rw [if_pos he, if_pos (hsplit.2 (Or.inl he))]
    · rw [if_neg he, if_neg fun h => (hsplit.1 h).elim he hrest]

/-- Labels do not count. -/
theorem putLabel (h : Seeded entries s t) (address : Int) (name : String) :
    Seeded entries s (t.putLabel address name) :=
  ⟨h.rom, stable_valid.putLabel address name h.valid, h.cell⟩

theorem of_reset (hs : s.Valid) (he : s.Contains e.offset) (hname : e.name = resetName) :
    Seeded [e] s (s.editRun e.offset 1 (·.setContext .emulation)) := by
  refine ⟨rfl, hs.editRun (Cell.masking_setContext _) _ _, fun i hi => ?_⟩
  rw [hs.cell_editRun _ _ he.1 hi]
  by_cases hoffset : e.offset = i
  · rw [if_pos (by omega), if_pos ⟨e, List.mem_cons_self, hname, hoffset⟩]
  · rw [if_neg (by omega), if_neg]
    rintro ⟨e', he', -, hat⟩
    obtain rfl := List.mem_singleton.1 he'
    exact hoffset hat

theorem of_other (hs : s.Valid) (hname : e.name ≠ resetName) : Seeded [e] s s := by
  refine ⟨rfl, hs, fun i _ => ?_⟩
  rw [if_neg]
  rintro ⟨e', he', hreset, -⟩
  obtain rfl := List.mem_singleton.1 he'
  exact hname hreset

end Seeded

end Seeding

/-- In a seeded fresh store, walked in elsewhere, the reset target still begins in the reset
state. -/
theorem Seeded.inherited_eq_emulation {u : Store} {rom : Array UInt8} {layout : Layout}
    {speed : Speed} {e : VectorEntry} {entries : List VectorEntry} {visits : List Visit}
    (hseeded : Seeded entries s t) (hfresh : Store.create rom layout speed = .ok s)
    (hframe : Frame visits t u) (he : e ∈ entries) (hname : e.name = resetName)
    (hin : s.Contains e.offset)
    (hfree : ∀ v ∈ visits, ¬ v.Covers (e.offset - 1) ∧ ¬ v.Covers e.offset) :
    u.inherited e.offset (e.offset - 1) = .emulation := by
  have hunreached : ∀ i, s.Contains i → (t.cell i).flag = .unreached := by
    intro i hi
    rw [hseeded.cell i hi, cell_create hfresh i]
    split
    · rfl
    · rfl
  have hreset : (t.cell e.offset).context = .emulation := by
    rw [hseeded.cell _ hin, if_pos ⟨e, he, hname, rfl⟩]
    rfl
  rw [inherited_of_unreached, (hframe.kept _ (hseeded.contains.2 hin) fun v hv => (hfree v hv).2).2,
    hreset]
  intro hprev
  have hbefore := hframe.agrees.contains.1 hprev
  rw [(hframe.kept _ hbefore fun v hv => (hfree v hv).1).1]
  exact hunreached _ (hseeded.contains.1 hbefore)

end Store

/-- Nothing but the record or the byte before it hands a context on to the first visit. -/
theorem HandsOn.of_nil {s : Store} {start : Int} {c : Context} (h : HandsOn s start [] c) :
    s.inheritedContext start (start - 1) = .ok c := by
  rcases h.samePage with ⟨-, hc⟩ | ⟨before, u, hnone, -⟩
  · exact hc
  · simp at hnone

namespace StoreM

variable {s : Store} {e : VectorEntry} {entries : List VectorEntry}

theorem seedEntry_of_contains (hs : s.Valid) (he : s.Contains e.offset) (label : Bool) :
    ∃ t, seedEntry label e s = .ok () t ∧ Store.Seeded [e] s t := by
  have hlabel : ∀ t, Store.Seeded [e] s t → Store.Seeded [e] s
      (if label ∧ t.labels.text e.target = "" then t.putLabel e.target e.name else t) := by
    intro t ht
    split
    · exact ht.putLabel _ _
    · exact ht
  by_cases hname : e.name = resetName
  · refine ⟨_, ?_, hlabel _ (Store.Seeded.of_reset hs he hname)⟩
    unfold seedEntry
    rw [if_pos hname]
    exact bind_of_ok (edit_of_contains he _)
  · refine ⟨_, ?_, hlabel _ (Store.Seeded.of_other hs hname)⟩
    unfold seedEntry
    rw [if_neg hname]
    rfl

theorem seedEntries_of_contains (hs : s.Valid) (he : ∀ e ∈ entries, s.Contains e.offset)
    (label : Bool) : ∃ t, seedEntries label entries s = .ok () t ∧ Store.Seeded entries s t := by
  induction entries generalizing s with
  | nil => exact ⟨s, rfl, Store.Seeded.nil hs⟩
  | cons e rest ih =>
    obtain ⟨t, hfirst, hseeded⟩ := seedEntry_of_contains hs (he e List.mem_cons_self) label
    obtain ⟨u, hrest, hmore⟩ := ih hseeded.valid fun e' he' =>
      hseeded.contains.2 (he e' (List.mem_cons_of_mem _ he'))
    exact ⟨u, (bind_of_ok hfirst).trans hrest, hseeded.cons hmore⟩

end StoreM

namespace ProjectM

variable {p q r : Project} {limit : Int} {e : VectorEntry} {entries : List VectorEntry}
  {visits : List Visit}

/-- The vectors whose targets lie in the image are seeded and returned. -/
theorem seedVectors_of_seedEntries {label : Bool} {t : Store}
    (h : StoreM.seedEntries label p.store.vectorEntries p.store = .ok () t) :
    ∃ log, seedVectors label p = .ok p.store.vectorEntries { p with store := t, log } := by
  have hread : StoreM.seedVectors label p.store = .ok _ t :=
    (bind_of_ok (StoreM.read_of_ok (Store.readVectorsOf_eq p.store vectorTable))).trans
      (bind_of_ok h)
  exact ⟨_, (bind_of_ok (onStore_of_ok hread)).trans rfl⟩

/-- Seeding succeeds, and returns the vectors whose targets lie in the image. -/
theorem seedVectors_of_valid (hs : p.store.Valid) (label : Bool) :
    ∃ q, seedVectors label p = .ok p.store.vectorEntries q ∧
      Store.Seeded p.store.vectorEntries p.store q.store := by
  obtain ⟨t, hseed, hseeded⟩ := StoreM.seedEntries_of_contains hs
    (fun _ he => Store.contains_of_mem_vectorEntries he) label
  obtain ⟨log, hlog⟩ := seedVectors_of_seedEntries hseed
  exact ⟨_, hlog, hseeded⟩

section Walking

/-- The walk `w` from an offset takes the project from the one state to the other. -/
def Walks (limit offset : Int) (p : Project) (w : Walk) (q : Project) : Prop :=
  walk offset limit p = .ok w.offset q ∧ StoreM.walk offset limit p.store = .ok w q.store

/-- The walks from some entries, one after the other, with their visits, the newest first. -/
inductive Walked (limit : Int) : List VectorEntry → Project → List Visit → Project → Prop
  | nil {p : Project} : Walked limit [] p [] p
  | cons {e : VectorEntry} {rest : List VectorEntry} {p q r : Project} {w : Walk}
    {visits : List Visit} : Walks limit e.offset p w q → Walked limit rest q visits r →
    Walked limit (e :: rest) p (visits ++ w.visits) r

theorem Walked.walkAll (h : Walked limit entries p visits q) :
    walkAll limit entries p = .ok () q := by
  induction h with
  | nil => rfl
  | @cons e rest p q r w visits hwalk _ ih =>
    have hfirst : discard (walk e.offset limit) p = .ok () q := by
      change EStateM.map _ (walk e.offset limit) p = _
      simp only [EStateM.map, hwalk.1]
    exact (bind_of_ok hfirst).trans ih

theorem Walked.append {more : List VectorEntry} {later : List Visit}
    (h : Walked limit entries p visits q) (k : Walked limit more q later r) :
    Walked limit (entries ++ more) p (later ++ visits) r := by
  induction h with
  | nil => rwa [List.append_nil]
  | cons hwalk _ ih =>
    rw [← List.append_assoc]
    exact Walked.cons hwalk (ih k)

theorem walks_of_ok {offset : Int} {w : Walk} {t : Store}
    (h : StoreM.walk offset limit p.store = .ok w t) :
    ∃ q, Walks limit offset p w q ∧ q.store = t := by
  have hstore : (({ p with store := t } : Project).follow w.visits.reverse).store = t :=
    Project.store_follow _ _
  exact ⟨_, ⟨walk_of_run h, h.trans (congrArg (EStateM.Result.ok w) hstore.symm)⟩, hstore⟩

theorem walked_of_contains (hs : p.store.Valid)
    (he : ∀ e ∈ entries, p.store.Contains e.offset) (limit : Int) :
    ∃ visits q, Walked limit entries p visits q ∧ q.store.Valid ∧
      Store.Frame visits p.store q.store := by
  induction entries generalizing p with
  | nil => exact ⟨[], p, Walked.nil, hs, Store.Frame.refl _⟩
  | cons e rest ih =>
    obtain ⟨w, t, hwalk, ht, hframe⟩ := StoreM.walk_frame hs (he e List.mem_cons_self) limit
    obtain ⟨q, hwalks, rfl⟩ := walks_of_ok hwalk
    obtain ⟨visits, r, hwalked, hr, hmore⟩ := ih ht fun e' he' =>
      hframe.agrees.contains.2 (he e' (List.mem_cons_of_mem _ he'))
    exact ⟨_, r, Walked.cons hwalks hwalked, hr, hframe.trans hmore⟩

/-- A walk that may visit anything visits its start first, under the context found there. -/
theorem walks_of_contains {offset : Int} (hs : p.store.Valid) (ho : p.store.Contains offset)
    (hlimit : 1 ≤ limit) :
    ∃ w q, Walks limit offset p w q ∧ q.store.Valid ∧ p.store.Agrees q.store ∧
      ∃ first rest, w.visits.reverse = first :: rest ∧ first.offset = offset ∧
        first.opcode = p.store.peek offset ∧
        first.context = p.store.statusContext offset first.opcode
          (p.store.inherited offset (offset - 1)) := by
  obtain ⟨w, t, hwalk, ht, hframe⟩ := StoreM.walk_frame hs ho limit
  obtain ⟨w', t', hrun, -, hthreaded, hmore⟩ := (Walk.Threads.begin hs ho).run limit.toNat
  obtain ⟨rfl, rfl⟩ := EStateM.Result.ok.inj (hrun.symm.trans hwalk)
  obtain ⟨q, hwalks, rfl⟩ := walks_of_ok hwalk
  refine ⟨w', q, hwalks, ht, hframe.agrees, ?_⟩
  have hvisits : w'.visits.reverse ≠ [] := by
    rw [ne_eq, List.reverse_eq_nil_iff]
    exact hmore (Or.inr ⟨by omega, Bool.false_ne_true⟩)
  obtain ⟨first, rest, hsplit⟩ := List.exists_cons_of_ne_nil hvisits
  have hoffset : first.offset = offset := hthreaded.head first (by rw [hsplit]; rfl)
  have hop := hthreaded.opcode first (by rw [hsplit]; exact List.mem_cons_self)
  obtain ⟨c, hc, hcontext⟩ := hthreaded.context [] first rest hsplit
  have hinherited := hc.of_nil.symm.trans (Store.inheritedContext_of_contains ho)
  rw [Except.ok.inj hinherited, Store.takesOver_iff, ← hop, hoffset] at hcontext
  exact ⟨first, rest, hsplit, hoffset, by rw [hop, hoffset], hcontext⟩

end Walking

end ProjectM

section Handlers

/-- An image of half a bank is read in the upper half of the first bank. -/
theorem Layout.fileOffset?_loRom_halfBank {address : Int} (h : 0 ≤ address)
    (h' : address < 0x10000) : Layout.fileOffset? .loRom 0x8000 address =
      if 0x8000 ≤ address then some (address - 0x8000) else none := by
  unfold fileOffset?
  by_cases hupper : 0x8000 ≤ address
  · have hsystem : ¬ IsSystem address := by
      unfold IsSystem InLowerHalf
      omega
    have hsave : ¬ IsSaveMemory address := by
      unfold IsSaveMemory
      omega
    have hinside : upperHalfOffset address = address - 0x8000 := by
      unfold upperHalfOffset
      omega
    have hread : ¬ (address < 0 ∨ 0xFFFFFF < address ∨ (0x8000 : Int) ≤ 0 ∨
        IsSystem address) := by
      simp only [hsystem, or_false]
      omega
    rw [if_neg hread, if_pos hupper, place?, if_neg hsave, hinside, Option.map_some,
      unmirror_of_lt (show address - 0x8000 < 0x8000 by omega), Int.zero_add]
  · have hsystem : IsSystem address := by
      unfold IsSystem InLowerHalf
      omega
    rw [if_pos (Or.inr (Or.inr (Or.inr hsystem))), if_neg hupper]

/-- Half a bank with code at its start. One interrupt leads to the first byte and the reset to the
byte `reset`; the other vectors are zero. -/
def handlerBytes (code : List UInt8) (reset : UInt8) : List UInt8 :=
  List.ofFn fun i : Fin 0x8000 =>
    if i.val = 0x7FEB ∨ i.val = 0x7FFD then 0x80
    else if i.val = 0x7FFC then reset
    else if 0x7FE4 ≤ i.val then 0
    else code.getD i 0

abbrev handlerImage (code : List UInt8) (reset : UInt8) : Array UInt8 :=
  Store.codeImage 0x8000 0 (handlerBytes code reset)

/-- The fresh store of such an image. -/
abbrev handlerStore (code : List UInt8) (reset : UInt8) : Store :=
  Store.codeStore .loRom 0x8000 0 (handlerBytes code reset)

namespace Store

variable (code : List UInt8) (reset : UInt8)

theorem peek_handlerStore {i : Int} (h : 0 ≤ i) (hi : i < 0x8000) :
    (handlerStore code reset).peek i =
      if i = 0x7FEB ∨ i = 0x7FFD then 0x80
      else if i = 0x7FFC then reset
      else if 0x7FE4 ≤ i then 0
      else code.getD i.toNat 0 := by
  have hlt : i.toNat < 0x8000 := by omega
  have h1 : i.toNat = 0x7FEB ∨ i.toNat = 0x7FFD ↔ i = 0x7FEB ∨ i = 0x7FFD := by omega
  have h2 : i.toNat = 0x7FFC ↔ i = 0x7FFC := by omega
  have h3 : 0x7FE4 ≤ i.toNat ↔ 0x7FE4 ≤ i := by omega
  rw [peek_codeStore h hi]
  simp only [handlerBytes, Nat.sub_zero, List.getD_eq_getElem?_getD, List.getElem?_ofFn, hlt,
    dif_pos, Option.getD_some, h1, h2, h3]

theorem fileOffset?_handlerStore {address : Int} (h : 0 ≤ address) (h' : address < 0x10000) :
    (handlerStore code reset).fileOffset? address =
      if 0x8000 ≤ address then some (address - 0x8000) else none := by
  unfold fileOffset?
  rw [size_codeStore]
  change (Layout.fileOffset? .loRom 0x8000 address).filter _ = _
  rw [Layout.fileOffset?_loRom_halfBank h h']
  split
  · have hin : (handlerStore code reset).Contains (address - 0x8000) :=
      contains_codeStore.2 (by omega)
    simp [hin]
  · rfl

/-- Every vector is read; its target lies in the image if it is in the upper half of the bank. -/
theorem vector?_handlerStore (name : String) {address : Int} (h : 0xFFE4 ≤ address)
    (h' : address < 0xFFFF) :
    (handlerStore code reset).vector? name address = some
      (if 0x8000 ≤ (handlerStore code reset).word (address - 0x8000) then
        .inside ⟨name, address, (handlerStore code reset).word (address - 0x8000),
          (handlerStore code reset).word (address - 0x8000) - 0x8000⟩
      else .outside name ((handlerStore code reset).word (address - 0x8000))) := by
  have hend : (handlerStore code reset).Contains (address - 0x8000 + 1) :=
    contains_codeStore.2 (by omega)
  have hword := (handlerStore code reset).word_lt (address - 0x8000)
  unfold vector?
  rw [fileOffset?_handlerStore _ _ (by omega) (by omega), if_pos (by omega), Option.bind_some,
    if_pos hend, fileOffset?_handlerStore _ _ (by omega) (by omega)]
  by_cases hupper : 0x8000 ≤ (handlerStore code reset).word (address - 0x8000)
  · rw [if_pos (by omega), if_pos hupper]
  · rw [if_neg (by omega), if_neg hupper]

theorem vectorEntries_handlerStore : (handlerStore code reset).vectorEntries =
    [⟨"Native_NMI", 0xFFEA, 0x8000, 0⟩,
      ⟨resetName, 0xFFFC, reset.toNat + 0x8000, reset.toNat⟩] := by
  have hreadings : (vectorTable.filterMap fun v => (handlerStore code reset).vector? v.1 v.2) =
      [.outside "Native_COP" 0, .outside "Native_BRK" 0, .outside "Native_ABORT" 0,
        .inside ⟨"Native_NMI", 0xFFEA, 0x8000, 0⟩, .outside "Native_IRQ" 0,
        .outside "Emulation_COP" 0, .outside "Emulation_ABORT" 0, .outside "Emulation_NMI" 0,
        .inside ⟨"Emulation_RESET", 0xFFFC, reset.toNat + 0x8000, reset.toNat⟩,
        .outside "Emulation_IRQBRK" 0] := by
    simp [vectorTable, vector?_handlerStore, word, peek_handlerStore]
  rw [vectorEntries, hreadings]
  rfl

end Store

/-- A walk of one instruction is one step. -/
theorem StoreM.walk_one {s : Store} {offset : Int} (hs : s.Valid) (ho : s.Contains offset) :
    walk offset 1 s =
      .ok ((Walk.start offset).successor s) ((Walk.start offset).storeAfter s) := by
  have hnew : ¬ (Walk.start offset).seen.contains (Walk.start offset).offset = true :=
    Bool.false_ne_true
  have hstep := Walk.advance_of_contains (w := Walk.start offset) hs ho
  change Walk.run 1 (Walk.start offset) s = _
  unfold Walk.run
  rw [if_neg hnew, bind_of_ok hstep]
  split
  · rfl
  · rfl

end Handlers

namespace ProjectM

variable {p q : Project} {limit : Int} {visits : List Visit}

/-- The walk from the handler begins, in the first byte of the image, with the record there. -/
theorem walked_handler {code : List UInt8} {reset : UInt8} {name : String}
    {address target : Int}
    (hseeded : Store.Seeded (handlerStore code reset).vectorEntries (handlerStore code reset)
      p.store) (h : Walked 1 [⟨name, address, target, 0⟩] p visits q) :
    visits = [(Walk.start 0).visit p.store] ∧ q.store = (Walk.start 0).storeAfter p.store := by
  have hin : p.store.Contains 0 :=
    hseeded.contains.2 (Store.contains_codeStore.2 (by decide))
  cases h with
  | cons hwalk hrest =>
    cases hrest
    obtain ⟨hw, hq⟩ := EStateM.Result.ok.inj
      (hwalk.2.symm.trans (StoreM.walk_one hseeded.valid hin))
    rw [hw, hq, Walk.visits_successor]
    exact ⟨rfl, rfl⟩

/--
In a fresh project every vector is walked from. The walk from the reset target visits that target
first, under the context that its record or the byte before it holds by then. If no instruction that
was visited before covers either of them, this is the reset state; only a status mask of the first
instruction itself changes it.
-/
theorem analyzeVectors_starts_reset {rom : Array UInt8} {layout : Layout} {speed : Speed}
    (hfresh : Store.create rom layout speed = .ok p.store) (hlimit : 1 ≤ limit) :
    ∃ entries seeded, seedVectors true p = .ok entries seeded ∧
      ∀ before e after, entries = before ++ e :: after → e.name = resetName →
        ∃ visits q w q' later final, Walked limit before seeded visits q ∧
          Walks limit e.offset q w q' ∧ Walked limit after q' later final ∧
          analyzeVectors limit p = .ok entries final ∧
          ∃ first rest, w.visits.reverse = first :: rest ∧ first.offset = e.offset ∧
            first.opcode = p.store.peek e.offset ∧
            first.context = p.store.statusContext e.offset first.opcode
              (q.store.inherited e.offset (e.offset - 1)) ∧
            ((∀ v ∈ visits, ¬ v.Covers (e.offset - 1) ∧ ¬ v.Covers e.offset) →
              first.context = p.store.statusContext e.offset first.opcode .emulation) := by
  have hs := Store.valid_create hfresh
  obtain ⟨seeded, hseed, hseeded⟩ := seedVectors_of_valid hs true
  refine ⟨_, seeded, hseed, fun before e after hsplit hname => ?_⟩
  have hin : ∀ e' ∈ before ++ e :: after, p.store.Contains e'.offset := by
    rw [← hsplit]
    exact fun _ => Store.contains_of_mem_vectorEntries
  simp only [List.forall_mem_append, List.forall_mem_cons] at hin
  obtain ⟨hinBefore, hinReset, hinAfter⟩ := hin
  obtain ⟨visits, q, hbefore, hq, hframe⟩ := walked_of_contains hseeded.valid
    (fun e' he' => hseeded.contains.2 (hinBefore e' he')) limit
  have hrom : q.store.rom = p.store.rom := hframe.agrees.rom.trans hseeded.rom
  obtain ⟨w, q', hwalk, hq', hagree, first, rest, hfirst, hoffset, hop, hcontext⟩ :=
    walks_of_contains hq ((Store.contains_of_rom hrom).2 hinReset) hlimit
  have hrom' : q'.store.rom = p.store.rom := hagree.rom.trans hrom
  obtain ⟨later, final, hafter, -⟩ := walked_of_contains hq'
    (fun e' he' => (Store.contains_of_rom hrom').2 (hinAfter e' he')) limit
  have hall : walkAll limit p.store.vectorEntries seeded = .ok () final := by
    rw [hsplit]
    exact (hbefore.append (Walked.cons hwalk hafter)).walkAll
  have hanalyze : analyzeVectors limit p = .ok p.store.vectorEntries final :=
    (bind_of_ok hseed).trans (bind_of_ok hall)
  rw [Store.statusContext_of_rom hrom] at hcontext
  refine ⟨visits, q, w, q', later, final, hbefore, hwalk, hafter, hanalyze, first, rest, hfirst,
    hoffset, ?_, hcontext, fun hfree => ?_⟩
  · rw [hop, Store.peek_of_rom hrom]
  · have he : e ∈ p.store.vectorEntries := by simp [hsplit]
    rw [hcontext, hseeded.inherited_eq_emulation hfresh hframe he hname hinReset hfree]

/-- The reset target lies two bytes behind the start of a handler of one byte, and its first
instruction makes the accumulator wide. -/
theorem analyzeVectors_starts_reset_masked :
    let p : Project := { store := handlerStore [0x40, 0x00, 0xC2, 0x20, 0xDB] 2 }
    Store.create (handlerImage [0x40, 0x00, 0xC2, 0x20, 0xDB] 2) .loRom .slow = .ok p.store ∧
      ∃ seeded visits q w q' first,
        seedVectors true p = .ok [⟨"Native_NMI", 0xFFEA, 0x8000, 0⟩, ⟨resetName, 0xFFFC, 0x8002, 2⟩]
          seeded ∧
        Walked 1 [⟨"Native_NMI", 0xFFEA, 0x8000, 0⟩] seeded visits q ∧ visits ≠ [] ∧
        Walks 1 2 q w q' ∧ w.visits.reverse.head? = some first ∧ first.opcode = Opcode.rep ∧
        first.context = { xFlag := true } := by
  intro p
  have hfresh : Store.create _ _ _ = .ok p.store := Store.create_codeStore (by decide)
  obtain ⟨entries, seeded, hseed, hreset⟩ :=
    analyzeVectors_starts_reset hfresh (show (1 : Int) ≤ 1 from Int.le_refl 1)
  obtain ⟨seeded', hseed', hseeded⟩ := seedVectors_of_valid (Store.valid_create hfresh) true
  obtain ⟨rfl, rfl⟩ := EStateM.Result.ok.inj (hseed'.symm.trans hseed)
  have hentries : p.store.vectorEntries = _ := Store.vectorEntries_handlerStore _ _
  rw [hentries] at hreset hseed
  obtain ⟨visits, q, w, q', -, -, hbefore, hwalk, -, -, first, rest, hfirst, -, hop, -, hcontext⟩ :=
    hreset [⟨"Native_NMI", 0xFFEA, 0x8000, 0⟩] _ [] rfl rfl
  have hpeek : p.store.peek 0 = 0x40 ∧ p.store.peek 2 = Opcode.rep ∧ p.store.peek 3 = 0x20 :=
    ⟨Store.peek_handlerStore _ _ (by decide) (by decide),
      Store.peek_handlerStore _ _ (by decide) (by decide),
      Store.peek_handlerStore _ _ (by decide) (by decide)⟩
  -- The handler is one byte long, so the byte before the target is free.
  obtain ⟨rfl, -⟩ := walked_handler hseeded hbefore
  have hbehind : ((Walk.start 0).visit seeded'.store).behind = 1 := by
    have hhandler : seeded'.store.peek (Walk.start 0).offset = 0x40 := by
      rw [Store.peek_of_rom hseeded.rom]
      exact hpeek.1
    have hmode : Opcode.mode 0x40 = .implied := by decide +kernel
    simp only [Visit.behind, Walk.visit, hhandler, hmode]
    rfl
  have hfree : ∀ v ∈ [(Walk.start 0).visit seeded'.store], ¬ v.Covers 1 ∧ ¬ v.Covers 2 := by
    intro v hv
    obtain rfl := List.mem_singleton.1 hv
    simp only [Visit.Covers, hbehind]
    omega
  have hmask : p.store.statusContext 2 Opcode.rep .emulation = { xFlag := true } := by
    have hin : p.store.Contains (2 + 1) := Store.contains_codeStore.2 (by decide)
    have hmask : p.store.peek (2 + 1) = 0x20 := hpeek.2.2
    unfold Store.statusContext
    rw [if_pos ⟨Or.inl rfl, hin⟩, hmask]
    rfl
  refine ⟨hfresh, seeded', _, q, w, q', first, hseed, hbefore, List.cons_ne_nil _ _, hwalk, ?_, ?_,
    ?_⟩
  · rw [hfirst]
    rfl
  · exact hop.trans hpeek.2.1
  · rw [hcontext hfree, hop.trans hpeek.2.1]
    exact hmask

/-- The only byte of the handler lies before the reset target: the walk from there takes over the
context of the handler, in which the registers are wide. -/
theorem analyzeVectors_reset_behind_handler :
    let p : Project := { store := handlerStore [0x40, 0xA9, 0x12, 0xDB] 1 }
    Store.create (handlerImage [0x40, 0xA9, 0x12, 0xDB] 1) .loRom .slow = .ok p.store ∧
      ∃ handler reset seeded visits q w q' first rest,
        seedVectors true p = .ok [handler, reset] seeded ∧ reset.name = resetName ∧
        Walked 1 [handler] seeded visits q ∧ Walks 1 reset.offset q w q' ∧
        w.visits.reverse = first :: rest ∧ first.offset = reset.offset ∧
        first.context ≠ p.store.statusContext reset.offset first.opcode .emulation := by
  intro p
  have hfresh : Store.create _ _ _ = .ok p.store := Store.create_codeStore (by decide)
  obtain ⟨seeded, hseed, hseeded⟩ := seedVectors_of_valid (Store.valid_create hfresh) true
  have hentries : p.store.vectorEntries = _ := Store.vectorEntries_handlerStore _ _
  rw [hentries] at hseed
  have hin : seeded.store.Contains 0 :=
    hseeded.contains.2 (Store.contains_codeStore.2 (by decide))
  have hwalked : ∀ e ∈ [VectorEntry.mk "Native_NMI" 0xFFEA 0x8000 0],
      seeded.store.Contains e.offset := by
    intro e he
    obtain rfl := List.mem_singleton.1 he
    exact hin
  obtain ⟨visits, q, hbefore, hq, hframe⟩ := walked_of_contains hseeded.valid hwalked 1
  have hrom : q.store.rom = p.store.rom := hframe.agrees.rom.trans hseeded.rom
  obtain ⟨w, q', hwalk, -, -, first, rest, hfirst, hoffset, hop, hcontext⟩ :=
    walks_of_contains hq ((Store.contains_of_rom hrom).2
      (Store.contains_codeStore.2 (show (0 : Int) ≤ 1 ∧ (1 : Int) < 0x8000 by decide)))
    (Int.le_refl 1)
  -- The handler was decoded under the record of a fresh cell, and is found before the target.
  have hhandler : seeded.store.peek 0 = 0x40 := by
    rw [Store.peek_of_rom hseeded.rom]
    exact Store.peek_handlerStore _ _ (by decide) (by decide)
  have hrecord : ((Walk.start 0).visit seeded.store).context = {} := by
    have hfirst : seeded.store.inherited 0 (-1) = (seeded.store.cell 0).context :=
      if_neg fun h => absurd h.1.1 (by decide)
    have hcell : seeded.store.cell 0 = {} := by
      rw [hseeded.cell 0 (hseeded.contains.1 hin), if_neg, Store.cell_create hfresh]
      rw [hentries]
      decide
    change seeded.store.statusContext 0 (seeded.store.peek 0) (seeded.store.inherited 0 (-1)) = _
    rw [hhandler, Store.statusContext_of_ne (by decide) (by decide), hfirst, hcell]
  have hinherited : q.store.inherited 1 (1 - 1) = {} := by
    rw [(walked_handler hseeded hbefore).2]
    have hne : seeded.store.peek (Walk.start 0).offset ≠ Opcode.plp := by
      rw [show seeded.store.peek (Walk.start 0).offset = 0x40 from hhandler]
      decide
    exact (Walk.inherited_storeAfter hseeded.valid hin 1 hne).trans hrecord
  have hload : first.opcode = 0xA9 := by
    rw [hop, Store.peek_of_rom hrom]
    exact Store.peek_handlerStore _ _ (by decide) (by decide)
  refine ⟨hfresh, _, _, seeded, visits, q, w, q', first, rest, hseed, rfl, hbefore, hwalk, hfirst,
    hoffset, ?_⟩
  rw [hcontext, hload, Store.statusContext_of_ne (by decide) (by decide),
    Store.statusContext_of_ne (by decide) (by decide)]
  exact fun h => absurd (hinherited.symm.trans h) (by decide)

end ProjectM

end Disassembly
