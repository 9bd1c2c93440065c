import VmMetadata.Config
import VmMetadata.Inspect.View
import VmMetadata.Vm.Answer

/-!
Sessions and queries. A session holds the virtual machine, the layout chosen at attach time, the
notebook, and a probe between itself and the machine. The probe writes down every call and can
spoil calls: make them fail, or answer them falsely. A query keeps what it has done when it fails.
Nothing is logged, so what only a log would show is not asked for.
-/

namespace VmMetadata

/-- What a spoiled call does instead of asking the machine. -/
inductive Spoiled
  | fails (text : String)
  | answers (reply : Reply) (value : reply.Value)

/-- A fault of one entry point: some calls pass, then some are spoiled, later ones pass again. -/
structure Fault where
  /-- How many calls still pass before the first one that is spoiled. -/
  passing : Nat
  /-- How many calls are still spoiled, all if this is absent. -/
  remaining : Option Nat
  effect : Spoiled

structure Probe where
  faults : List (String × Fault)
  /-- The calls made so far, the latest first. -/
  calls : List AnyCall

namespace Probe

def new : Probe := ⟨[], []⟩

def record (p : Probe) (c : Call r) : Probe :=
  { p with calls := ⟨r, c⟩ :: p.calls }

/-- Puts a fault in the place of the one that the entry point had. -/
def setFault (p : Probe) (entry : String) (f : Fault) : Probe :=
  { p with faults := (entry, f) :: p.faults.filter (·.1 ≠ entry) }

def heal (p : Probe) : Probe :=
  { p with faults := [] }

end Probe

/-- The fault as it is after one more call, and whether that call is spoiled. -/
def Fault.step (f : Fault) : Fault × Bool :=
  match f.passing, f.remaining with
  | n + 1, _ => ({ f with passing := n }, false)
  | 0, none => (f, true)
  | 0, some 0 => (f, false)
  | 0, some (n + 1) => ({ f with remaining := some n }, true)

/-- What a spoiled call of the shape comes to. An answer of another shape is none. -/
def Spoiled.result? (r : Reply) : Spoiled → Option (Except Error r.Value)
  | .fails text => some (.error (.accessor (.reported text)))
  | .answers shape value => if h : shape = r then some (.ok (h ▸ value)) else none

/-- Entry points that no fault can be set on: reading them is no call into the machine. -/
def Call.isConstant : Call r → Bool
  | .pointerSize | .moduleBase => true
  | _ => false

namespace Probe

/-- Counts a call against the fault of its entry point. The result, if there is one, stands for
the machine's answer. -/
def intercept (p : Probe) (c : Call r) : Option (Except Error r.Value) × Probe :=
  if c.isConstant then (none, p)
  else
    match p.faults.lookup c.name with
    | none => (none, p)
    | some f =>
        let (g, spoiled) := f.step
        (if spoiled then g.effect.result? r else none, p.setFault c.name g)

end Probe

structure Session where
  vm : Vm
  version : Version
  layout : ClassLayout
  probe : Probe
  notebook : Notebook

namespace Session

def new (vm : Vm) (version : Version) (layout : ClassLayout) : Session :=
  ⟨vm, version, layout, .new, .new⟩

/-- Attaches to a machine with the layout that its build, or the configuration, calls for. -/
def attach (vm : Vm) (config : Config := {}) : Except Error Session := do
  let (version, layout) ← config.resolveLayout vm.vmVersion vm.pointerSize
  pure (new vm version layout)

end Session

/-- A computation in a session. -/
abbrev Query := EStateM Error Session

namespace Query

def lift (x : Except Error α) : Query α := fun s =>
  match x with
  | .ok a => .ok a s
  | .error e => .error e s

/-- A computation of the machine itself. -/
def access (x : Access α) : Query α := fun s =>
  match x s.vm with
  | .ok a vm => .ok a { s with vm }
  | .error e vm => .error e { s with vm }

/-- Makes a call through the probe. -/
def ask (c : Call r) : Query r.Value := fun s =>
  let (spoiled, probe) := (s.probe.record c).intercept c
  let s := { s with probe }
  match spoiled with
  | some result => lift result s
  | none => access (Vm.answer c) s

/-- What the page says about the fact; if nothing, what `find` finds, which is then noted. A
failure notes nothing. -/
def remember (page : Nat) (f : Fact) (find : Query f.Value) : Query f.Value := do
  match (← get).notebook.find? page f with
  | some v => pure v
  | none =>
      let v ← find
      modify fun s => { s with notebook := s.notebook.add page f v }
      pure v

/-- A new view of the object. A null handle is refused. -/
def view (e : Entity) (h : Handle) : Query (View e) := do
  let h ← lift (h.require e.label)
  fun s => .ok ⟨h, s.notebook.next⟩ { s with notebook := s.notebook.addPage h }

/-- A new view, or none for a null handle. -/
def view? (e : Entity) (h : Handle) : Query (Option (View e)) :=
  match h.nonNull? with
  | some h => some <$> view e h
  | none => pure none

/-- A copy of a view: it knows what the view knows, and what either finds out from now on stays
unknown to the other. -/
def copy (v : View e) : Query (View e) := fun s =>
  .ok ⟨v.handle, s.notebook.next⟩ { s with notebook := s.notebook.copyPage v.page }

end Query

end VmMetadata
