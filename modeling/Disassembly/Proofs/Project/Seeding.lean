import Disassembly.Proofs.Project.Labels
import Disassembly.Proofs.Store.Integrity

/-!
What seeding leaves behind. The vectors that are found depend on the image and the layout alone, and
neither changes. Names are added only where there are none, and of the records only the one of the
reset target gets a new context. All of this is in place after one run, so that another run has
nothing left to do.
-/
namespace Disassembly

namespace Notes

variable {notes : Notes} {entries : List VectorEntry}

theorem Filled.getElem?_eq (h : notes.Filled) (address : Int) :
    notes[address]? = if notes.text address = "" then none else some (notes.text address) := by
  unfold Notes.text
  rw [Std.TreeMap.getD_eq_getD_getElem?]
  cases hfound : notes[address]? with
  | none => simp
  | some text => simp [h address text hfound]

theorem Filled.nameTargets (h : notes.Filled) (entries : List VectorEntry) :
    (notes.nameTargets entries).Filled := by
  induction entries generalizing notes with
  | nil => exact h
  | cons e rest ih =>
    apply ih
    split
    · exact h.put _ _
    · exact h

/-- Entries stay, and the first vector for an address adds one where there was none. -/
theorem Filled.getElem?_nameTargets (h : notes.Filled) (hname : ∀ e ∈ entries, e.name ≠ "")
    (address : Int) : (notes.nameTargets entries)[address]? =
      notes[address]?.or ((entries.find? fun e => e.target = address).map (·.name)) := by
  rw [(h.nameTargets entries).getElem?_eq, text_nameTargets hname, h.getElem?_eq]
  by_cases hold : notes.text address = ""
  · simp only [if_pos hold, Option.none_or, firstName]
    cases hfind : entries.find? fun e => e.target = address with
    | none => simp
    | some e => simp [hname e (List.mem_of_find?_eq_some hfind)]
  · simp [hold]

theorem nameTargets_of_named (h : ∀ e ∈ entries, notes.text e.target ≠ "") :
    notes.nameTargets entries = notes := by
  induction entries with
  | nil => rfl
  | cons e rest ih =>
    simp only [List.forall_mem_cons] at h
    rw [nameTargets, if_neg h.1, ih h.2]

end Notes

namespace Store

variable {s t u : Store} {e : VectorEntry} {entries names : List VectorEntry}

section Vectors

theorem wordAt_eq_ok_iff {offset : Int} {word : Nat} :
    s.wordAt offset = .ok word ↔ 0 ≤ offset ∧ offset + 2 ≤ s.size ∧ word = s.word offset := by
  by_cases hin : 0 ≤ offset ∧ offset + 2 ≤ s.size
  · rw [wordAt_of_le hin.1 hin.2]
    simp [hin, eq_comm]
  · have hfault : s.check 2 offset = .error (.outside 2 offset s.size) := if_pos (by omega)
    rw [wordAt, hfault]
    constructor
    · intro h
      cases h
    · exact fun h => absurd ⟨h.1, h.2.1⟩ hin

/-- An entry is a vector whose word can be read, and whose target has a place in the image. -/
theorem mem_vectorEntries_iff_wordAt :
    e ∈ s.vectorEntries ↔ (e.name, e.address) ∈ vectorTable ∧
      ∃ (place : Int) (word : Nat), s.fileOffset? e.address = some place ∧
        s.wordAt place = .ok word ∧ e.target = word ∧ s.fileOffset? e.target = some e.offset := by
  rw [mem_vectorEntries_iff]
  refine and_congr_right fun _ => ⟨?_, ?_⟩
  · rintro ⟨place, hplace, hend, htarget, hoffset⟩
    have hword : s.wordAt place = .ok (s.word place) :=
      wordAt_of_le (contains_of_fileOffset? hplace).1 (by have := hend.2; omega)
    exact ⟨place, _, hplace, hword, htarget, hoffset⟩
  · rintro ⟨place, word, hplace, hword, htarget, hoffset⟩
    obtain ⟨h0, hle, rfl⟩ := wordAt_eq_ok_iff.1 hword
    exact ⟨place, hplace, ⟨by omega, by omega⟩, htarget, hoffset⟩

/-- The entries stand in the order of the table. -/
theorem vectorEntries_sublist (s : Store) :
    (s.vectorEntries.map fun e => (e.name, e.address)).Sublist vectorTable := by
  unfold vectorEntries
  generalize vectorTable = table
  induction table with
  | nil => exact List.Sublist.refl _
  | cons v rest ih =>
    rw [List.filterMap_cons]
    cases hv : s.vector? v.1 v.2 with
    | none => exact ih.cons v
    | some reading =>
      cases reading with
      | outside name target => exact ih.cons v
      | inside e =>
        have hnamed : v = (e.name, e.address) := (vector?_eq_inside_iff.1 hv).1
        rw [hnamed]
        exact ih.cons_cons _

theorem vectorEntries_of_rom (hrom : t.rom = s.rom) (hlayout : t.layout = s.layout) :
    t.vectorEntries = s.vectorEntries := by
  cases s
  cases t
  subst hrom hlayout
  rfl

theorem vectorEntries_putLabel (s : Store) (address : Int) (name : String) :
    (s.putLabel address name).vectorEntries = s.vectorEntries := rfl

theorem contains_putLabel (s : Store) (address : Int) (name : String) {i : Int} :
    (s.putLabel address name).Contains i ↔ s.Contains i := Iff.rfl

end Vectors

theorem Named.eq_update (h : Named entries s t) :
    t = { s with cells := t.cells, labels := t.labels } := by
  obtain ⟨hrom, hlayout, hspeed, hcomments, -, -⟩ := h
  cases s
  cases t
  subst hrom hlayout hspeed hcomments
  rfl

theorem Named.text_ne_empty (h : Named entries s t) (he : e ∈ entries) :
    t.labels.text e.target ≠ "" := by
  rw [h.text]
  split
  · obtain ⟨f, hf, -, hname⟩ := firstName_of_mem he
    rw [hname]
    exact h.name_ne_empty f hf
  · assumption

/-- What was seeded once is not changed by seeding it again. -/
theorem Seeded.eq_of_again (hseeded : Seeded entries s t) (hnamed : Named names s t)
    (hagain : Seeded entries t u) (hrenamed : Named names t u) : u = t := by
  have hlabels : u.labels = t.labels := by
    rw [hrenamed.labels]
    exact Notes.nameTargets_of_named fun e he => hnamed.text_ne_empty he
  have hagrees : t.Agrees u :=
    ⟨hrenamed.rom, hrenamed.layout, hrenamed.speed, hlabels, hrenamed.comments⟩
  refine eq_of_cell_eq hagrees hseeded.valid hagain.valid fun i hi => ?_
  rw [hagain.cell i hi, hseeded.cell i (hseeded.contains.1 hi)]
  split
  · rfl
  · rfl

theorem filled_labels_create {rom : Array UInt8} {layout : Layout} {speed : Speed}
    (h : create rom layout speed = .ok s) : s.labels.Filled := by
  rw [eq_of_create h]
  exact Notes.filled_empty

theorem Reachable.putLabel (h : s.Reachable) (address : Int) (name : String) :
    (s.putLabel address name).Reachable :=
  .apply { store := s } (.label address name) h

end Store

namespace ProjectM

variable {p : Project}

/-- Seeding changes records and labels, and it reports. -/
theorem seedVectors_run (hs : p.store.Valid) (label : Bool) :
    ∃ t log, seedVectors label p = .ok p.store.vectorEntries { p with store := t, log } ∧
      Store.Seeded p.store.vectorEntries p.store t ∧
      Store.Named (if label then p.store.vectorEntries else []) p.store t := by
  have hin : ∀ e ∈ p.store.vectorEntries, p.store.Contains e.offset := fun _ he =>
    Store.contains_of_mem_vectorEntries he
  obtain ⟨t, hrun, hseeded⟩ := StoreM.seedEntries_of_contains hs hin label
  obtain ⟨t', hrun', hnamed⟩ :=
    StoreM.seedEntries_names hin (fun _ he => Store.name_ne_empty he) label
  obtain ⟨-, rfl⟩ := EStateM.Result.ok.inj (hrun.symm.trans hrun')
  obtain ⟨log, hlog⟩ := seedVectors_of_seedEntries hrun
  exact ⟨t, log, hlog, hseeded, hnamed⟩

/--
Seeding returns the vectors that have their word in the image and lead into it, in the order of the
table. It keeps every label and adds, if names are wanted, the name of the first vector for each
target without one; it gives the reset target the context of a reset and leaves all else as it is.
A second run returns the same vectors and adds nothing but its reports.
-/
theorem seedVectors_conservative (hreach : p.store.Reachable) (label : Bool) :
    ∃ entries q, seedVectors label p = .ok entries q ∧
      (entries.map fun e => (e.name, e.address)).Sublist vectorTable ∧
      (∀ e, e ∈ entries ↔ (e.name, e.address) ∈ vectorTable ∧
        ∃ (place : Int) (word : Nat), p.store.fileOffset? e.address = some place ∧
          p.store.wordAt place = .ok word ∧ e.target = word ∧
          p.store.fileOffset? e.target = some e.offset) ∧
      (∀ e ∈ entries, 0 ≤ e.offset ∧ e.offset < p.store.size) ∧
      (∀ address : Int, q.store.labels[address]? = p.store.labels[address]?.or
        (if label then (entries.find? fun e => e.target = address).map (·.name) else none)) ∧
      (∀ i, p.store.Contains i → q.store.cell i =
        if Store.IsResetTarget entries i then { p.store.cell i with context := .emulation }
        else p.store.cell i) ∧
      (∃ cells labels log, cells.size = p.store.cells.size ∧
        q = { p with store := { p.store with cells, labels }, log }) ∧
      ∃ log, seedVectors label q = .ok entries { q with log } := by
  have hs := hreach.valid
  obtain ⟨t, log, hrun, hseeded, hnamed⟩ := seedVectors_run hs label
  refine ⟨_, _, hrun, Store.vectorEntries_sublist _, fun e => Store.mem_vectorEntries_iff_wordAt,
    fun e he => Store.contains_of_mem_vectorEntries he, ?_, hseeded.cell, ?_, ?_⟩
  · intro address
    have hfilled := hreach.holds Store.stable_labels Store.filled_labels_create
    have hlabels := hfilled.getElem?_nameTargets hnamed.name_ne_empty address
    rw [← hnamed.labels] at hlabels
    cases label with
    | false => exact hlabels
    | true => exact hlabels
  · refine ⟨t.cells, t.labels, log, ?_, ?_⟩
    · rw [hseeded.valid.size_cells, hs.size_cells]
      exact congrArg Array.size hseeded.rom
    · exact congrArg (fun store => ({ p with store, log } : Project)) hnamed.eq_update
  · obtain ⟨u, log', hagain, hreseeded, hrenamed⟩ :=
      @seedVectors_run { p with store := t, log } hseeded.valid label
    rw [Store.vectorEntries_of_rom hnamed.rom hnamed.layout] at hagain hreseeded hrenamed
    obtain rfl := hseeded.eq_of_again hnamed hreseeded hrenamed
    exact ⟨log', hagain⟩

/-- Two vectors with one target, and a label elsewhere. -/
theorem seedVectors_conservative_shared_target :
    let p : Project := { store := (handlerStore [0xEA, 0xDB] 0).putLabel 0x9000 "table" }
    p.store.Reachable ∧ ∃ entries q log, seedVectors true p = .ok entries q ∧
      entries = [⟨"Native_NMI", 0xFFEA, 0x8000, 0⟩, ⟨"Emulation_RESET", 0xFFFC, 0x8000, 0⟩] ∧
      q.store.labels[(0x8000 : Int)]? = some "Native_NMI" ∧
      q.store.labels[(0x9000 : Int)]? = some "table" ∧
      (q.store.cell 0).context = .emulation ∧
      seedVectors true q = .ok entries { q with log } := by
  intro p
  have hfresh : (handlerStore [0xEA, 0xDB] 0).Reachable :=
    .create (Store.create_codeStore (by decide))
  have hreach : p.store.Reachable := hfresh.putLabel 0x9000 "table"
  obtain ⟨entries, q, hrun, -, -, -, hlabels, hcells, -, log, hagain⟩ :=
    seedVectors_conservative hreach true
  have hentries : entries =
      [⟨"Native_NMI", 0xFFEA, 0x8000, 0⟩, ⟨"Emulation_RESET", 0xFFFC, 0x8000, 0⟩] := by
    obtain ⟨q', hrun', -⟩ := seedVectors_of_valid hreach.valid true
    obtain ⟨hsame, -⟩ := EStateM.Result.ok.inj (hrun.symm.trans hrun')
    rw [hsame, Store.vectorEntries_putLabel, Store.vectorEntries_handlerStore]
    rfl
  have hlabel (address : Int) : p.store.labels[address]? =
      if (0x9000 : Int) = address then some "table" else none := by
    simp [p, Store.putLabel, Notes.put, Std.TreeMap.getElem?_insert, Store.codeStore]
  have hin : p.store.Contains 0 := (Store.contains_putLabel _ _ _).2
    (Store.contains_codeStore.2 (by decide))
  refine ⟨hreach, entries, q, log, hrun, hentries, ?_, ?_, ?_, hagain⟩
  · rw [hlabels, hlabel, hentries]
    rfl
  · rw [hlabels, hlabel, hentries]
    rfl
  · rw [hcells 0 hin, if_pos]
    rw [hentries]
    decide

end ProjectM

end Disassembly
