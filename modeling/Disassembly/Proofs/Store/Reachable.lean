import Disassembly.Project.Action
import Disassembly.Proofs.Store.Cells

/-!
Stores that arise from an image. Every action is made of four kinds of changes; a property that
these keep holds in all stores that the actions can reach, failed actions included.
-/
namespace Disassembly

/-- A sweep does nothing but decode. -/
theorem StoreM.keeps_sweep {I : Store → Prop}
    (h : ∀ offset branch force prev, Keeps I (decode offset branch force prev))
    (start behind : Int) : Keeps I (sweep start behind) := by
  have hrun (behind : Int) (n : Nat) (w : Sweep) : Keeps I (Sweep.run behind n w) := by
    induction n generalizing w with
    | zero => exact Keeps.pure _
    | succ n ih =>
      unfold Sweep.run
      split
      · exact ((h _ _ _ _).bind fun _ => (keeps_read _).bind fun _ => Keeps.pure _).bind ih
      · exact Keeps.pure _
  exact Keeps.get.bind fun _ => hrun _ _ _

/-- A property that the elementary changes of a store keep. -/
structure Stable (I : Store → Prop) : Prop where
  editRun : ∀ {s f}, Cell.Masking f → ∀ offset n, I s → I (s.editRun offset n f)
  clearMarks : ∀ {s}, I s → I s.clearMarks
  putLabel : ∀ {s} address name, I s → I (s.putLabel address name)
  putComment : ∀ {s} address text, I s → I (s.putComment address text)

namespace Stable

variable {I : Store → Prop} (h : Stable I)

include h

section Operations

theorem edit (offset : Int) {f : Cell → Cell} (hf : Cell.Masking f) :
    Keeps I (StoreM.edit offset f) :=
  (StoreM.keeps_read _).bind fun _ => Keeps.modify fun _ => h.editRun hf offset 1

theorem editUpTo (offset count : Int) {f : Cell → Cell} (hf : Cell.Masking f) :
    Keeps I (StoreM.editUpTo offset count f) := by
  have hrest : Keeps I (do
      StoreM.read (·.check 1 offset)
      let size := (← get).size
      let behind := min (offset + count) size
      modify (·.editRun offset (behind - offset).toNat f)
      return behind : StoreM Int) :=
    (StoreM.keeps_read _).bind fun _ => Keeps.get.bind fun _ =>
      (Keeps.modify fun _ => h.editRun hf offset _).bind fun _ => Keeps.pure _
  unfold StoreM.editUpTo
  split
  · exact (Keeps.throw _).bind fun _ => hrest
  · exact hrest

theorem addMarks (marks : List (Int × Marks)) : Keeps I (StoreM.addMarks marks) := by
  induction marks with
  | nil => exact Keeps.pure _
  | cons p rest ih => exact (h.edit p.1 (Cell.masking_addMarks p.2)).bind fun _ => ih

theorem markFlow (offset : Int) : Keeps I (StoreM.markFlow offset) :=
  (StoreM.keeps_read _).bind fun _ => (StoreM.keeps_read _).bind fun _ =>
    (h.addMarks _).bind fun _ => Keeps.pure _

theorem ownOperands (offset : Int) (length : Nat) (context : Context) :
    Keeps I (StoreM.ownOperands offset length context) :=
  Keeps.modify fun _ => h.editRun (Cell.masking_own _ _) _ _

theorem decode (offset : Int) (branch force : Bool) (prev : Int) :
    Keeps I (StoreM.decode offset branch force prev) :=
  (StoreM.keeps_read _).bind fun _ => (StoreM.keeps_read _).bind fun _ =>
    Keeps.get.bind fun _ => (h.edit offset (Cell.masking_own _ _)).bind fun _ =>
    (StoreM.keeps_read _).bind fun _ => (h.ownOperands offset _ _).bind fun _ =>
    (h.markFlow offset).bind fun _ => (StoreM.keeps_read _).bind fun _ => Keeps.pure _

end Operations

section Analyses

theorem passStatus (w : Walk) (op : UInt8) (context : Context) :
    Keeps I (w.passStatus op context) := by
  unfold Walk.passStatus
  split
  · exact Keeps.pure _
  · split
    · split
      · exact Keeps.pure _
      · exact (h.edit w.offset (Cell.masking_setWidths _)).bind fun _ => Keeps.pure _
    · exact Keeps.pure _

theorem advance (w : Walk) : Keeps I w.advance := by
  refine (h.decode _ _ _ _).bind fun passed => (h.decode _ _ _ _).bind fun taken => ?_
  refine (StoreM.keeps_read _).bind fun context => (h.passStatus _ _ _).bind fun w => ?_
  refine Keeps.ite (Keeps.pure _) ?_
  exact Keeps.ite (Keeps.pure _) (Keeps.get.bind fun _ => Keeps.pure _)

theorem run (n : Nat) (w : Walk) : Keeps I (w.run n) := by
  induction n generalizing w with
  | zero => exact Keeps.pure _
  | succ n ih =>
    unfold Walk.run
    split
    · exact Keeps.pure _
    · refine (h.advance w).bind fun w => ?_
      split
      · exact Keeps.pure _
      · exact ih w

theorem sweep (start behind : Int) : Keeps I (StoreM.sweep start behind) :=
  StoreM.keeps_sweep h.decode start behind

theorem markAll (offsets : List Nat) (flows : List Flow) :
    Keeps I (StoreM.markAll offsets flows) := by
  induction offsets generalizing flows with
  | nil => exact Keeps.pure _
  | cons offset rest ih => exact (h.markFlow offset).bind fun _ => ih _

theorem rescan : Keeps I StoreM.rescan := by
  have hclear : Keeps I (modify (·.clearMarks) : StoreM Unit) :=
    Keeps.modify fun _ hs => h.clearMarks hs
  exact hclear.bind fun _ => Keeps.get.bind fun _ =>
    (h.markAll _ _).bind fun _ => Keeps.pure _

theorem align (offset : Int) : Keeps I (StoreM.align offset) :=
  (StoreM.keeps_read _).bind fun _ => (StoreM.keeps_read _).bind fun _ => Keeps.get.bind fun _ =>
    (h.ownOperands offset _ _).bind fun _ => Keeps.pure _

theorem repairFrom (n : Nat) (offset : Int) (changed : Nat) :
    Keeps I (StoreM.repairFrom n offset changed) := by
  induction n generalizing offset changed with
  | zero => exact Keeps.pure _
  | succ n ih =>
    unfold StoreM.repairFrom
    refine Keeps.get.bind fun s => ?_
    split
    · exact Keeps.pure _
    · refine (StoreM.keeps_read _).bind fun flag => ?_
      split
      · exact (h.align offset).bind fun _ => ih _ _
      · exact (h.edit offset (Cell.masking_setFlag _)).bind fun _ =>
          (h.align offset).bind fun _ => ih _ _
      · exact ih _ _

theorem seedEntries (label : Bool) (entries : List VectorEntry) :
    Keeps I (StoreM.seedEntries label entries) := by
  induction entries with
  | nil => exact Keeps.pure _
  | cons entry rest ih =>
    have hlabel : Keeps I (modify fun s =>
        if label ∧ s.labels.text entry.target = "" then s.putLabel entry.target entry.name
        else s : StoreM Unit) := by
      refine Keeps.modify fun s hs => ?_
      split
      · exact h.putLabel _ _ hs
      · exact hs
    refine Keeps.bind ?_ fun _ => ih
    unfold StoreM.seedEntry
    split
    · exact (h.edit entry.offset (Cell.masking_setContext _)).bind fun _ => hlabel
    · exact hlabel

theorem seedVectors (label : Bool) : Keeps I (StoreM.seedVectors label) :=
  (StoreM.keeps_read _).bind fun _ => (h.seedEntries label _).bind fun _ => Keeps.pure _

end Analyses

end Stable

section Projects

variable {α : Type} {I : Store → Prop}

theorem Project.store_recordVisits (p : Project) (visits : List Visit) :
    (p.recordVisits visits).store = p.store := by
  unfold recordVisits
  split
  · rfl
  · rfl

theorem Project.store_follow (p : Project) (visits : List Visit) :
    (p.follow visits).store = p.store :=
  store_recordVisits _ visits

namespace ProjectM

theorem onStore_of_ok {act : StoreM α} {p : Project} {a : α} {t : Store}
    (h : act p.store = .ok a t) : onStore act p = .ok a { p with store := t } := by
  obtain ⟨store, title, recorder, channels, log⟩ := p
  simp only [onStore, h]

/-- The visits of a sweep are followed in the order in which they took place. -/
theorem sweep_of_run {start behind : Int} {p : Project} {w : Sweep} {t : Store}
    (h : StoreM.sweep start behind p.store = .ok w t) :
    sweep start behind p =
      .ok w.offset (({ p with store := t } : Project).follow w.visits.reverse) :=
  (bind_of_ok (onStore_of_ok h)).trans rfl

theorem walk_of_run {offset limit : Int} {p : Project} {w : Walk} {t : Store}
    (h : StoreM.walk offset limit p.store = .ok w t) :
    walk offset limit p =
      .ok w.offset ((({ p with store := t } : Project).follow w.visits.reverse).report
        (w.stop.toList.map Event.stopped)) :=
  (bind_of_ok (onStore_of_ok h)).trans rfl

theorem keeps_onStore {act : StoreM α} (ha : Keeps I act) :
    Keeps (fun p : Project => I p.store) (onStore act) := by
  rintro ⟨store, title, recorder, channels, log⟩ hs
  have h := ha store hs
  unfold onStore
  simp only
  cases hr : act store with
  | ok a t =>
    rw [hr] at h
    exact h
  | error e t =>
    rw [hr] at h
    exact h

theorem keeps_report (events : List Event) :
    Keeps (fun p : Project => I p.store) (report events) := fun _ h => h

theorem keeps_follow (visits : List Visit) :
    Keeps (fun p : Project => I p.store) (follow visits) := by
  intro p h
  change I (p.follow visits).store
  rwa [Project.store_follow]

section Lifting

variable {offset prev start behind limit : Int} {branch force : Bool}

theorem keeps_step (h : Keeps I (StoreM.decode offset branch force prev)) :
    Keeps (fun p : Project => I p.store) (step offset branch force prev) :=
  (keeps_onStore h).bind fun _ => (keeps_report _).bind fun _ => Keeps.pure _

theorem keeps_markFlow (h : Keeps I (StoreM.markFlow offset)) :
    Keeps (fun p : Project => I p.store) (markFlow offset) :=
  (keeps_onStore h).bind fun _ => keeps_report _

theorem keeps_sweep (h : Keeps I (StoreM.sweep start behind)) :
    Keeps (fun p : Project => I p.store) (sweep start behind) :=
  (keeps_onStore h).bind fun _ => (keeps_follow _).bind fun _ => Keeps.pure _

theorem keeps_walk (h : Keeps I (StoreM.walk offset limit)) :
    Keeps (fun p : Project => I p.store) (walk offset limit) :=
  (keeps_onStore h).bind fun _ => (keeps_follow _).bind fun _ =>
    (keeps_report _).bind fun _ => Keeps.pure _

end Lifting

end ProjectM

theorem Project.apply_eq (p : Project) (a : Action) : p.apply a = finalState (a.perform p) := by
  unfold apply finalState
  cases a.perform p <;> rfl

theorem Action.keeps_update {f : Store → Store} (hf : ∀ s, I s → I (f s)) :
    Keeps (fun p : Project => I p.store) (update f) :=
  (ProjectM.keeps_onStore (Keeps.modify hf)).bind fun _ => Keeps.pure _

variable (h : Stable I)

include h

theorem Stable.walk (offset limit : Int) :
    Keeps (fun p : Project => I p.store) (ProjectM.walk offset limit) :=
  ProjectM.keeps_walk (h.run _ _)

theorem Stable.projectSweep (start behind : Int) :
    Keeps (fun p : Project => I p.store) (ProjectM.sweep start behind) :=
  ProjectM.keeps_sweep (h.sweep start behind)

theorem Stable.projectSeedVectors (label : Bool) :
    Keeps (fun p : Project => I p.store) (ProjectM.seedVectors label) :=
  (ProjectM.keeps_onStore (h.seedVectors label)).bind fun _ =>
    (ProjectM.keeps_report _).bind fun _ => Keeps.pure _

theorem Stable.walkAll (limit : Int) (entries : List VectorEntry) :
    Keeps (fun p : Project => I p.store) (ProjectM.walkAll limit entries) := by
  induction entries with
  | nil => exact Keeps.pure _
  | cons entry rest ih =>
    exact ((h.walk entry.offset limit).bind fun _ => Keeps.pure _).bind fun _ => ih

theorem Stable.edit_perform (offset : Int) {f : Cell → Cell} (hf : Cell.Masking f) :
    Keeps (fun p : Project => I p.store) (Action.edit offset f) :=
  (ProjectM.keeps_onStore (h.edit offset hf)).bind fun _ => Keeps.pure _

theorem Stable.fill_perform (offset count : Int) {f : Cell → Cell} (hf : Cell.Masking f) :
    Keeps (fun p : Project => I p.store) (Action.fill offset count f) :=
  (ProjectM.keeps_onStore (h.editUpTo offset count hf)).bind fun _ => Keeps.pure _

/-- Actions keep what the elementary changes keep. -/
theorem Stable.perform (a : Action) : Keeps (fun p : Project => I p.store) a.perform := by
  cases a with
  | setFlag offset flag => exact h.edit_perform offset (Cell.masking_setFlag flag)
  | setDirectPage offset value => exact h.edit_perform offset (Cell.masking_setDirectPage value)
  | setDataBank offset value => exact h.edit_perform offset (Cell.masking_setDataBank value)
  | setXFlag offset value => exact h.edit_perform offset (Cell.masking_setXFlag value)
  | setMFlag offset value => exact h.edit_perform offset (Cell.masking_setMFlag value)
  | setWidths offset bits => exact h.edit_perform offset (Cell.masking_setWidths bits)
  | setContext offset context => exact h.edit_perform offset (Cell.masking_setContext context)
  | addMarks offset marks => exact h.edit_perform offset (Cell.masking_addMarks marks)
  | clearMarks => exact Action.keeps_update fun _ => h.clearMarks
  | fillFlag offset flag count => exact h.fill_perform offset count (Cell.masking_setFlag flag)
  | fillDirectPage offset value count =>
    exact h.fill_perform offset count (Cell.masking_setDirectPage value)
  | fillDataBank offset value count =>
    exact h.fill_perform offset count (Cell.masking_setDataBank value)
  | fillXFlag offset value count => exact h.fill_perform offset count (Cell.masking_setXFlag value)
  | fillMFlag offset value count => exact h.fill_perform offset count (Cell.masking_setMFlag value)
  | label address name => exact Action.keeps_update fun _ => h.putLabel address name
  | comment address text => exact Action.keeps_update fun _ => h.putComment address text
  | step offset branch force prev =>
    exact (ProjectM.keeps_step (h.decode offset branch force prev)).bind fun _ => Keeps.pure _
  | markFlow offset =>
    exact (ProjectM.keeps_markFlow (h.markFlow offset)).bind fun _ => Keeps.pure _
  | sweep start behind => exact (h.projectSweep start behind).bind fun _ => Keeps.pure _
  | analyze offset linear amount limit =>
    exact (Keeps.ite (h.projectSweep _ _) (h.walk _ _)).bind fun _ => Keeps.pure _
  | rescan =>
    exact ((ProjectM.keeps_onStore h.rescan).bind fun _ =>
      (ProjectM.keeps_report _).bind fun _ => Keeps.pure _).bind fun _ => Keeps.pure _
  | repair =>
    have hrepair : Keeps I StoreM.repair := Keeps.get.bind fun _ => h.repairFrom _ _ _
    exact ((ProjectM.keeps_onStore hrepair).bind fun _ =>
      (ProjectM.keeps_report _).bind fun _ => Keeps.pure _).bind fun _ => Keeps.pure _
  | seedVectors named => exact (h.projectSeedVectors named).bind fun _ => Keeps.pure _
  | analyzeVectors limit =>
    exact ((h.projectSeedVectors true).bind fun entries =>
      (h.walkAll limit entries).bind fun _ => Keeps.pure _).bind fun _ => Keeps.pure _

theorem Stable.apply (p : Project) (a : Action) (hp : I p.store) : I (p.apply a).store := by
  rw [Project.apply_eq]
  exact h.perform a p hp

end Projects

namespace Store

/-- Stores that come from an image by any actions, in a project of any kind. -/
inductive Reachable : Store → Prop
  | create {rom : Array UInt8} {layout : Layout} {speed : Speed} {s : Store} :
    Store.create rom layout speed = .ok s → Reachable s
  | apply (p : Project) (a : Action) : Reachable p.store → Reachable (p.apply a).store

theorem stable_valid : Stable Valid where
  editRun hf offset n hs := hs.editRun hf offset n
  clearMarks := by
    intro s hs
    refine ⟨(Array.size_map ..).trans hs.size_cells, ?_⟩
    intro i
    rw [cell_clearMarks, Cell.context_clearMarks]
    exact hs.masked i
  putLabel _ _ hs := ⟨hs.size_cells, hs.masked⟩
  putComment _ _ hs := ⟨hs.size_cells, hs.masked⟩

section Create

variable {rom : Array UInt8} {layout : Layout} {speed : Speed} {s : Store}

theorem eq_of_create (h : Store.create rom layout speed = .ok s) :
    s = { rom, layout, speed, cells := Array.replicate rom.size {} } := by
  unfold create at h
  split at h
  · cases h
  · exact (Except.ok.inj h).symm

/-- Nothing is known about the bytes of a fresh store. -/
theorem cell_create (h : Store.create rom layout speed = .ok s) (i : Int) : s.cell i = {} := by
  rw [eq_of_create h, cell]
  simp only [Array.getD_eq_getD_getElem?, Array.getElem?_replicate]
  split
  · rfl
  · rfl

theorem valid_create (h : Store.create rom layout speed = .ok s) : s.Valid := by
  refine ⟨?_, fun i => by rw [cell_create h i]; rfl⟩
  rw [eq_of_create h]
  exact Array.size_replicate

end Create

section Images

variable {layout : Layout} {size place : Nat} {code : List UInt8} {i : Int}

/-- An image of `size` bytes with `code` from `place` on and zeros elsewhere. -/
def codeImage (size place : Nat) (code : List UInt8) : Array UInt8 :=
  Array.ofFn fun i : Fin size => if i.val < place then 0 else code.getD (i - place) 0

/-- The fresh store of such an image. -/
def codeStore (layout : Layout) (size place : Nat) (code : List UInt8) : Store :=
  { rom := codeImage size place code, layout, speed := .slow
    cells := Array.replicate (codeImage size place code).size {} }

theorem create_codeStore (h : size ≠ 0) :
    Store.create (codeImage size place code) layout .slow =
      .ok (codeStore layout size place code) :=
  if_neg (by simpa [codeImage] using h)

@[simp] theorem size_codeStore : (codeStore layout size place code).size = size :=
  Array.size_ofFn

theorem contains_codeStore :
    (codeStore layout size place code).Contains i ↔ 0 ≤ i ∧ i < size := by
  rw [Contains, size_codeStore]

theorem peek_codeStore (hplace : place ≤ i) (hi : i < size) :
    (codeStore layout size place code).peek i = code.getD (i.toNat - place) 0 := by
  have hlt : i.toNat < size := by omega
  have hbehind : ¬ i.toNat < place := by omega
  simp [peek, codeStore, codeImage, Array.getD_eq_getD_getElem?, hlt, hbehind]

theorem busAddress?_codeStore (h0 : 0 ≤ i) (hi : i < size) :
    (codeStore layout size place code).busAddress? i = layout.busAddress? .slow i :=
  if_pos (contains_codeStore.2 ⟨h0, hi⟩)

end Images

/-- What fresh stores have and elementary changes keep, all reachable stores have. -/
theorem Reachable.holds {I : Store → Prop} (hstable : Stable I)
    (hcreate : ∀ {rom layout speed s}, Store.create rom layout speed = .ok s → I s) {s : Store}
    (h : s.Reachable) : I s := by
  induction h with
  | create h => exact hcreate h
  | apply p a _ ih => exact hstable.apply p a ih

theorem Reachable.valid {s : Store} (h : s.Reachable) : s.Valid :=
  h.holds stable_valid valid_create

theorem Reachable.applyAll {p : Project} (h : p.store.Reachable) (actions : List Action) :
    (p.applyAll actions).store.Reachable := by
  induction actions generalizing p with
  | nil => exact h
  | cons a rest ih => exact ih (.apply p a h)

end Store

end Disassembly
