import Disassembly.Project.Analysis
import Disassembly.Store.Edit

/-! Every change that can be made to a project, as data. -/
namespace Disassembly

inductive Action where
  | setFlag (offset : Int) (flag : Flag)
  | setDirectPage (offset value : Int)
  | setDataBank (offset value : Int)
  | setXFlag (offset : Int) (value : Bool)
  | setMFlag (offset : Int) (value : Bool)
  | setWidths (offset bits : Int)
  | setContext (offset : Int) (context : Context)
  | addMarks (offset : Int) (marks : Marks)
  | clearMarks
  | fillFlag (offset : Int) (flag : Flag) (count : Int)
  | fillDirectPage (offset value count : Int)
  | fillDataBank (offset value count : Int)
  | fillXFlag (offset : Int) (value : Bool) (count : Int)
  | fillMFlag (offset : Int) (value : Bool) (count : Int)
  | label (address : Int) (name : String)
  | comment (address : Int) (text : String)
  | step (offset : Int) (branch force : Bool) (prev : Int)
  | markFlow (offset : Int)
  | sweep (start behind : Int)
  | analyze (offset : Int) (linear : Bool) (amount limit : Int)
  | rescan
  | repair
  | seedVectors (named : Bool)
  | analyzeVectors (limit : Int)

/-- What an action returns. -/
inductive Reply where
  | done
  | offset (value : Int)
  | count (value : Nat)
  | vectors (entries : List VectorEntry)
  deriving DecidableEq

namespace Action

def edit (offset : Int) (f : Cell → Cell) : ProjectM Reply := do
  ProjectM.onStore (StoreM.edit offset f)
  return .done

def fill (offset count : Int) (f : Cell → Cell) : ProjectM Reply :=
  return .offset (← ProjectM.onStore (StoreM.editUpTo offset count f))

def update (f : Store → Store) : ProjectM Reply := do
  ProjectM.onStore (modify f)
  return .done

def perform : Action → ProjectM Reply
  | setFlag offset flag => edit offset (·.setFlag flag)
  | setDirectPage offset value => edit offset (·.setDirectPage value)
  | setDataBank offset value => edit offset (·.setDataBank value)
  | setXFlag offset value => edit offset (·.setXFlag value)
  | setMFlag offset value => edit offset (·.setMFlag value)
  | setWidths offset bits => edit offset (·.setWidths bits)
  | setContext offset context => edit offset (·.setContext context)
  | addMarks offset marks => edit offset (·.addMarks marks)
  | clearMarks => update (·.clearMarks)
  | fillFlag offset flag count => fill offset count (·.setFlag flag)
  | fillDirectPage offset value count => fill offset count (·.setDirectPage value)
  | fillDataBank offset value count => fill offset count (·.setDataBank value)
  | fillXFlag offset value count => fill offset count (·.setXFlag value)
  | fillMFlag offset value count => fill offset count (·.setMFlag value)
  | label address name => update (·.putLabel address name)
  | comment address text => update (·.putComment address text)
  | step offset branch force prev => return .offset (← ProjectM.step offset branch force prev)
  | markFlow offset => do
    ProjectM.markFlow offset
    return .done
  | sweep start behind => return .offset (← ProjectM.sweep start behind)
  | analyze offset linear amount limit =>
    return .offset (← ProjectM.analyze offset linear amount limit)
  | rescan => return .count (← ProjectM.rescan)
  | repair => return .count (← ProjectM.repair)
  | seedVectors named => return .vectors (← ProjectM.seedVectors named)
  | analyzeVectors limit => return .vectors (← ProjectM.analyzeVectors limit)

end Action

namespace Project

/-- The project after an action, whether or not it failed. -/
def apply (p : Project) (a : Action) : Project :=
  match a.perform p with
  | .ok _ p => p
  | .error _ p => p

/-- The project after a sequence of actions; failures do not end it. -/
def applyAll (p : Project) (actions : List Action) : Project := actions.foldl apply p

end Project

end Disassembly
