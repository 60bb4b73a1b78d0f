import Disassembly.Proofs.Analysis.Vectors
import Disassembly.Proofs.Layout.FirstBank
import Disassembly.Proofs.Project.Listing

/-!
Vector labels in listings. Seeding files the name of a vector under its target, an address of the
first bank; the listing looks labels up under canonical addresses. The two meet where the layout
shows the target in the first bank, and there the line of every target begins with the name of a
vector that leads to it. Elsewhere the names are in the table, but no line shows them.
-/
namespace Disassembly

theorem Notes.text_put (notes : Notes) (address other : Int) (text : String) :
    (notes.put address text).text other =
      if address = other then text else notes.text other := by
  unfold put Notes.text
  split
  · next hempty => simp [Std.TreeMap.getD_erase, hempty]
  · simp [Std.TreeMap.getD_insert]

section Names

variable {e : VectorEntry} {entries : List VectorEntry} {address : Int}

/-- The name of the first entry with this target, empty if there is none. -/
def firstName (entries : List VectorEntry) (address : Int) : String :=
  ((entries.find? fun e => e.target = address).map (·.name)).getD ""

theorem firstName_cons (e : VectorEntry) (entries : List VectorEntry) (address : Int) :
    firstName (e :: entries) address =
      if e.target = address then e.name else firstName entries address := by
  unfold firstName
  by_cases h : e.target = address <;> simp [h]

theorem firstName_of_mem (he : e ∈ entries) :
    ∃ f ∈ entries, f.target = e.target ∧ firstName entries e.target = f.name := by
  induction entries with
  | nil => simp at he
  | cons first rest ih =>
    rw [firstName_cons]
    by_cases hfirst : first.target = e.target
    · exact ⟨first, List.mem_cons_self, hfirst, if_pos hfirst⟩
    · rcases List.mem_cons.1 he with rfl | hrest
      · exact absurd rfl hfirst
      · obtain ⟨f, hf, htarget, hname⟩ := ih hrest
        exact ⟨f, List.mem_cons_of_mem _ hf, htarget, by rw [if_neg hfirst, hname]⟩

theorem firstName_of_forall_ne (h : ∀ e ∈ entries, e.target ≠ address) :
    firstName entries address = "" := by
  have hnone : (entries.find? fun e => e.target = address) = none := by
    simpa using h
  rw [firstName, hnone]
  rfl

end Names

namespace Notes

variable {notes : Notes} {entries : List VectorEntry}

/-- Files the names of entries under their targets, one after the other, where there is no text. -/
def nameTargets (notes : Notes) : List VectorEntry → Notes
  | [] => notes
  | e :: rest =>
    nameTargets (if notes.text e.target = "" then notes.put e.target e.name else notes) rest

theorem nameTargets_append (notes : Notes) (entries more : List VectorEntry) :
    notes.nameTargets (entries ++ more) = (notes.nameTargets entries).nameTargets more := by
  induction entries generalizing notes with
  | nil => rfl
  | cons e rest ih => exact ih _

/-- What has a text keeps it; elsewhere the first entry for the address names it. -/
theorem text_nameTargets (hname : ∀ e ∈ entries, e.name ≠ "") (notes : Notes) (address : Int) :
    (notes.nameTargets entries).text address =
      if notes.text address = "" then firstName entries address else notes.text address := by
  induction entries generalizing notes with
  | nil =>
    split
    · assumption
    · rfl
  | cons e rest ih =>
    simp only [List.forall_mem_cons] at hname
    rw [nameTargets, ih hname.2, firstName_cons]
    by_cases hold : notes.text e.target = ""
    · rw [if_pos hold, text_put]
      by_cases htarget : e.target = address
      · simp [← htarget, hold, hname.1]
      · simp [htarget]
    · rw [if_neg hold]
      by_cases htarget : e.target = address
      · simp [← htarget, hold]
      · simp [htarget]

end Notes

namespace Store

variable {s t u : Store} {e : VectorEntry} {entries more : List VectorEntry}

/-- The second store is the first with names for those targets that had none, up to its cells. -/
structure Named (entries : List VectorEntry) (s t : Store) : Prop where
  rom : t.rom = s.rom
  layout : t.layout = s.layout
  speed : t.speed = s.speed
  comments : t.comments = s.comments
  labels : t.labels = s.labels.nameTargets entries
  name_ne_empty : ∀ e ∈ entries, e.name ≠ ""

namespace Named

theorem of_agrees (h : s.Agrees t) : Named [] s t :=
  ⟨h.rom, h.layout, h.speed, h.comments, h.labels, by simp⟩

/-- A target without a name gets the name of its vector. -/
theorem of_entry (s : Store) (hname : e.name ≠ "") : Named [e] s
    (if s.labels.text e.target = "" then s.putLabel e.target e.name else s) := by
  have hall : ∀ f ∈ [e], f.name ≠ "" := by simpa using hname
  by_cases hold : s.labels.text e.target = ""
  · rw [if_pos hold]
    exact ⟨rfl, rfl, rfl, rfl, (if_pos hold).symm, hall⟩
  · rw [if_neg hold]
    exact ⟨rfl, rfl, rfl, rfl, (if_neg hold).symm, hall⟩

/-- The first name of a target stays. -/
theorem trans (h : Named entries s t) (k : Named more t u) : Named (entries ++ more) s u := by
  refine ⟨k.rom.trans h.rom, k.layout.trans h.layout, k.speed.trans h.speed,
    k.comments.trans h.comments, ?_, ?_⟩
  · rw [k.labels, h.labels, Notes.nameTargets_append]
  · exact List.forall_mem_append.2 ⟨h.name_ne_empty, k.name_ne_empty⟩

theorem text (h : Named entries s t) (address : Int) : t.labels.text address =
    if s.labels.text address = "" then firstName entries address else s.labels.text address := by
  rw [h.labels, Notes.text_nameTargets h.name_ne_empty]

theorem busAddress? (h : Named entries s t) (offset : Int) :
    t.busAddress? offset = s.busAddress? offset := by
  simp only [Store.busAddress?, contains_of_rom h.rom, h.layout, h.speed]

end Named

end Store

namespace StoreM

variable {s : Store} {e : VectorEntry} {entries : List VectorEntry}

theorem seedEntry_names (he : s.Contains e.offset) (hname : e.name ≠ "") (label : Bool) :
    ∃ t, seedEntry label e s = .ok () t ∧ Store.Named (if label then [e] else []) s t := by
  -- The reset state goes into a record; what is named is the store with that record.
  obtain ⟨u, hagrees, hrun⟩ : ∃ u, s.Agrees u ∧ seedEntry label e s =
      .ok () (if label ∧ u.labels.text e.target = "" then u.putLabel e.target e.name else u) := by
    unfold seedEntry
    by_cases hreset : e.name = resetName
    · refine ⟨s.editRun e.offset 1 (·.setContext .emulation), ⟨rfl, rfl, rfl, rfl, rfl⟩, ?_⟩
      rw [if_pos hreset]
      exact bind_of_ok (edit_of_contains he _)
    · refine ⟨s, Store.Agrees.refl s, ?_⟩
      rw [if_neg hreset]
      rfl
  refine ⟨_, hrun, ?_⟩
  have hkept := Store.Named.of_agrees hagrees
  cases label with
  | false => simpa using hkept
  | true => simpa using hkept.trans (Store.Named.of_entry u hname)

/-- Every target that had no name gets the name of the first vector that leads there, if names are
wanted. -/
theorem seedEntries_names (he : ∀ e ∈ entries, s.Contains e.offset)
    (hname : ∀ e ∈ entries, e.name ≠ "") (label : Bool) :
    ∃ t, seedEntries label entries s = .ok () t ∧
      Store.Named (if label then entries else []) s t := by
  induction entries generalizing s with
  | nil => exact ⟨s, rfl, by simpa using Store.Named.of_agrees (Store.Agrees.refl s)⟩
  | cons e rest ih =>
    simp only [List.forall_mem_cons] at he hname
    obtain ⟨t, hfirst, hnamed⟩ := seedEntry_names he.1 hname.1 label
    have hin : ∀ e' ∈ rest, t.Contains e'.offset := fun e' he' =>
      (Store.contains_of_rom hnamed.rom).2 (he.2 e' he')
    obtain ⟨u, hrest, hmore⟩ := ih hin hname.2
    refine ⟨u, (bind_of_ok hfirst).trans hrest, ?_⟩
    cases label with
    | false => exact hnamed.trans hmore
    | true => exact hnamed.trans hmore

end StoreM

namespace Store

variable {s : Store} {e : VectorEntry}

theorem name_ne_empty (he : e ∈ s.vectorEntries) : e.name ≠ "" := by
  have hall : ∀ v ∈ vectorTable, v.1 ≠ "" := by decide
  exact hall _ (mem_vectorEntries he).1

/-- Vectors hold addresses of the first bank. -/
theorem target_bounds (he : e ∈ s.vectorEntries) : 0 ≤ e.target ∧ e.target < 0x10000 := by
  obtain ⟨place, hplace⟩ := (mem_vectorEntries he).2.1
  have hword := s.word_lt place
  omega

/-- Vectors with the same target lead to the same byte. -/
theorem offset_eq_of_target {f : VectorEntry} (he : e ∈ s.vectorEntries)
    (hf : f ∈ s.vectorEntries) (h : f.target = e.target) : f.offset = e.offset := by
  have hfile := (mem_vectorEntries hf).2.2
  rw [h, (mem_vectorEntries he).2.2] at hfile
  exact (Option.some.inj hfile).symm

section Targets

variable {address : Int} (he : e ∈ s.vectorEntries) (h : s.busAddress? e.offset = some address)

include he h

theorem address_eq_target (hbank : s.layout.InFirstBank s.speed e.offset) :
    address = e.target := by
  obtain ⟨h0, hlt⟩ := target_bounds he
  obtain ⟨hfile, -⟩ := Option.filter_eq_some_iff.1 (mem_vectorEntries he).2.2
  exact Layout.canonical?_of_inFirstBank h0 hlt hfile (contains_of_mem_vectorEntries he).1 hbank
    (canonical?_of_busAddress? h).2

theorem le_address (hbank : ¬ s.layout.InFirstBank s.speed e.offset) : 0x10000 ≤ address :=
  Layout.le_canonical?_of_not_inFirstBank (contains_of_mem_vectorEntries he).1 hbank
    (canonical?_of_busAddress? h).2

end Targets

/-- The line of an instruction with a bus address, its label in front. -/
theorem listingLine_of_busAddress? {o address : Int} (h : s.busAddress? o = some address) :
    ∃ rest, s.listingLine o =
      .ok ((if s.labels.text address = "" then "" else s.labels.text address ++ ":\n") ++
        Text.upperHex 6 address ++ "  " ++ rest) := by
  obtain ⟨h0, hlt⟩ := busAddress?_bounds h
  obtain ⟨length, rest, -, -, hline⟩ := showsBytes_of_contains (canonical?_of_busAddress? h).1
  have hmod : address % 0x1000000 = address := Int.emod_eq_of_lt h0 hlt
  simp only [lineHead, h, Notes.textAt, Option.getD_some, hmod, String.append_assoc] at hline ⊢
  exact ⟨_, hline⟩

theorem text_of_create {rom : Array UInt8} {layout : Layout} {speed : Speed}
    (h : create rom layout speed = .ok s) (address : Int) : s.labels.text address = "" := by
  rw [eq_of_create h]
  exact Std.TreeMap.getD_emptyc

section Handlers

/-- Fresh stores of one image differ in the speed only. -/
theorem create_withSpeed {rom : Array UInt8} {layout : Layout} {speed : Speed}
    (h : create rom layout speed = .ok s) (other : Speed) :
    create rom layout other = .ok { s with speed := other } := by
  unfold create at h ⊢
  split
  · next hempty =>
    rw [if_pos hempty] at h
    cases h
  · next hfull =>
    rw [if_neg hfull] at h
    rw [← Except.ok.inj h]

theorem contains_withSpeed (s : Store) (speed : Speed) {i : Int} :
    ({ s with speed } : Store).Contains i ↔ s.Contains i := Iff.rfl

/-- The vectors are read alike at any speed. -/
theorem vectorEntries_withSpeed (s : Store) (speed : Speed) :
    ({ s with speed } : Store).vectorEntries = s.vectorEntries := rfl

/-- The first half bank is shown in the first bank, or with fast access in bank 0x80. -/
theorem busAddress?_loRom {o : Int} (hlayout : s.layout = .loRom) (ho : s.Contains o)
    (hlt : o < 0x8000) :
    s.busAddress? o = some (o + if s.speed = .fast then 0x808000 else 0x8000) := by
  have h0 := ho.1
  have haddress : Layout.upperHalfAddress o = o + 0x8000 := by
    unfold Layout.upperHalfAddress
    omega
  have hbound : o < 0x400000 := by omega
  have hwork : ¬ 0x7E0000 ≤ o + 0x8000 := by omega
  simp only [busAddress?, if_pos ho, Layout.busAddress?, if_neg (Int.not_lt.2 h0), hlayout,
    Layout.canonical?, if_pos hbound, haddress, hwork, or_false]
  split
  · exact congrArg some (by omega)
  · rfl

end Handlers

end Store

namespace ProjectM

variable {p : Project}

/-- Seeding succeeds and names the targets. -/
theorem seedVectors_names (p : Project) :
    ∃ q, seedVectors true p = .ok p.store.vectorEntries q ∧
      Store.Named p.store.vectorEntries p.store q.store := by
  obtain ⟨t, hseed, hnamed⟩ := StoreM.seedEntries_names
    (fun _ he => Store.contains_of_mem_vectorEntries he) (fun _ he => Store.name_ne_empty he) true
  obtain ⟨log, hlog⟩ := seedVectors_of_seedEntries hseed
  exact ⟨_, hlog, hnamed⟩

/--
The line of a vector's target begins with a label exactly if the layout has the target's canonical
address in the first bank. The label is then the name of a vector that leads to the target.
-/
theorem seedVectors_labels_first_bank {rom : Array UInt8} {layout : Layout} {speed : Speed}
    (hfresh : Store.create rom layout speed = .ok p.store) :
    ∃ entries q, seedVectors true p = .ok entries q ∧
      ∀ e ∈ entries, ∀ address, q.store.busAddress? e.offset = some address →
        ∃ label rest, q.store.listingLine e.offset =
            .ok (label ++ Text.upperHex 6 address ++ "  " ++ rest) ∧
          if layout.InFirstBank speed e.offset then
            ∃ f ∈ entries, f.offset = e.offset ∧ label = f.name ++ ":\n"
          else label = "" := by
  obtain ⟨q, hseed, hnamed⟩ := seedVectors_names p
  refine ⟨_, q, hseed, fun e he address haddress => ?_⟩
  have hstore := Store.eq_of_create hfresh
  have htext : q.store.labels.text address = firstName p.store.vectorEntries address := by
    rw [hnamed.text, if_pos (Store.text_of_create hfresh address)]
  obtain ⟨rest, hline⟩ := Store.listingLine_of_busAddress? haddress
  rw [hnamed.busAddress?] at haddress
  have hbank : layout.InFirstBank speed e.offset ↔
      p.store.layout.InFirstBank p.store.speed e.offset := by rw [hstore]
  refine ⟨_, rest, hline, ?_⟩
  rw [htext]
  split
  · next hfirst =>
    obtain ⟨f, hf, htarget, hname⟩ := firstName_of_mem he
    rw [Store.address_eq_target he haddress (hbank.1 hfirst), hname,
      if_neg (Store.name_ne_empty hf)]
    exact ⟨f, hf, Store.offset_eq_of_target he hf htarget, rfl⟩
  · next hother =>
    have hle := Store.le_address he haddress (mt hbank.2 hother)
    rw [if_pos]
    apply firstName_of_forall_ne
    intro f hf
    have hlt := (Store.target_bounds hf).2
    omega

/-- A reset target that has its canonical address in the first bank. -/
theorem seedVectors_labels_first_bank_slow :
    let p : Project := { store := handlerStore [0xEA, 0xDB] 1 }
    Store.create (handlerImage [0xEA, 0xDB] 1) .loRom .slow = .ok p.store ∧
      ∃ q rest, seedVectors true p =
          .ok [⟨"Native_NMI", 0xFFEA, 0x8000, 0⟩, ⟨"Emulation_RESET", 0xFFFC, 0x8001, 1⟩] q ∧
        q.store.listingLine 1 =
          .ok ("Emulation_RESET:\n" ++ Text.upperHex 6 0x8001 ++ "  " ++ rest) := by
  intro p
  have hfresh : Store.create _ _ _ = .ok p.store := Store.create_codeStore (by decide)
  have hentries : p.store.vectorEntries = _ := Store.vectorEntries_handlerStore _ _
  obtain ⟨entries, q, hseed, hlines⟩ := seedVectors_labels_first_bank hfresh
  obtain ⟨q', hseed', hnamed⟩ := seedVectors_names p
  obtain ⟨rfl, rfl⟩ := EStateM.Result.ok.inj (hseed'.symm.trans hseed)
  rw [hentries] at hseed hlines
  have hbus : q'.store.busAddress? 1 = some 0x8001 := by
    have hin : p.store.Contains 1 := Store.contains_codeStore.2 (by decide)
    rw [hnamed.busAddress?, Store.busAddress?_loRom rfl hin (by decide)]
    rfl
  obtain ⟨label, rest, hline, hlabel⟩ := hlines ⟨resetName, 0xFFFC, 0x8001, 1⟩ (by simp) _ hbus
  rw [if_pos (by decide)] at hlabel
  obtain ⟨f, hf, hoffset, rfl⟩ := hlabel
  have hreset : f.name = "Emulation_RESET" := by
    simp only [List.mem_cons, List.not_mem_nil, or_false] at hf
    rcases hf with rfl | rfl
    · simp at hoffset
    · rfl
  rw [hreset] at hline
  exact ⟨hfresh, q', rest, hseed, hline⟩

/-- The same image, read fast: the reset target is shown in bank 0x80, without a label. -/
theorem seedVectors_fast_unlabelled :
    let p : Project := { store := { handlerStore [0xEA, 0xDB] 1 with speed := .fast } }
    Store.create (handlerImage [0xEA, 0xDB] 1) .loRom .fast = .ok p.store ∧
      ∃ entries q e address line, seedVectors true p = .ok entries q ∧ e ∈ entries ∧
        q.store.busAddress? e.offset = some address ∧ q.store.listingLine e.offset = .ok line ∧
        ∀ f ∈ entries, ∀ rest, line ≠ f.name ++ ":\n" ++ rest := by
  intro p
  have hfresh : Store.create (handlerImage [0xEA, 0xDB] 1) .loRom .fast = .ok p.store :=
    Store.create_withSpeed (Store.create_codeStore (by decide)) .fast
  have hentries : p.store.vectorEntries = _ :=
    (Store.vectorEntries_withSpeed _ _).trans (Store.vectorEntries_handlerStore _ _)
  obtain ⟨q, hseed, hnamed⟩ := seedVectors_names p
  rw [hentries] at hseed hnamed
  have hbus : q.store.busAddress? 1 = some 0x808001 := by
    have hin : p.store.Contains 1 := (Store.contains_withSpeed _ .fast).2
      (Store.contains_codeStore.2 (by decide))
    rw [hnamed.busAddress?, Store.busAddress?_loRom rfl hin (by decide)]
    rfl
  obtain ⟨rest, hline⟩ := Store.listingLine_of_busAddress? hbus
  have hnone : q.store.labels.text 0x808001 = "" := by
    rw [hnamed.text, if_pos (Store.text_of_create hfresh _)]
    apply firstName_of_forall_ne
    simp
  have hshown : Text.upperHex 6 0x808001 = "808001" := by decide +kernel
  refine ⟨hfresh, _, q, ⟨resetName, 0xFFFC, 0x8001, 1⟩, _, _, hseed, by simp, hbus, hline, ?_⟩
  -- The line begins with the address, which no name does.
  intro f hf rest' heq
  have hhead := congrArg (fun text => text.toList.head?) heq
  simp only [List.mem_cons, List.not_mem_nil, or_false] at hf
  rcases hf with rfl | rfl <;> simp [hnone, hshown, resetName] at hhead

end ProjectM

end Disassembly
