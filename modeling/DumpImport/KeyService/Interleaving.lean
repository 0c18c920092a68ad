import DumpImport.KeyService.Remote

/-!
Several calls at a time to one remote service, which share the keys opened so far. Each call takes
one step after the other; which call takes the next step and when a request is answered is open,
and a schedule says it.
-/
namespace DumpImport.KeyService

inductive Phase where
  | looking
  | asking (correlation : String) (request : Web.Request)
  | storing (plaintext : String)
  | ended (result : Except Error String)

inductive Task where
  | decrypt (keyId wrapped : String) (phase : Phase)
  | clear (done : Bool)

/-- The exchanges are kept last first. -/
structure State where
  tasks : List Task
  cache : Cache
  exchanges : List (Web.Request × Web.Reply)

inductive Move where
  | step (i : Nat) (correlation : String)
  | answer (i : Nat) (reply : Web.Reply)

namespace Phase

def ask (base correlation keyId wrapped : String) : Phase :=
  match Remote.sendable decrypting correlation
      (Remote.decryptRequest base keyId wrapped correlation) with
  | .ok q => .asking correlation q
  | .error e => .ended (.error e)

def answered (keyId correlation : String) (q : Web.Request) (reply : Web.Reply) : Phase :=
  match Remote.settle decrypting correlation q.url (Remote.decryptAnswer keyId correlation) reply with
  | .ok plaintext => .storing plaintext
  | .error e => .ended (.error e)

end Phase

def Task.step (base correlation : String) (c : Cache) : Task → Option (Task × Cache)
  | .decrypt keyId wrapped .looking =>
    match c.get? wrapped keyId with
    | some plaintext => some (.decrypt keyId wrapped (.ended (.ok plaintext)), c)
    | none => some (.decrypt keyId wrapped (.ask base correlation keyId wrapped), c)
  | .decrypt keyId wrapped (.storing plaintext) =>
    some (.decrypt keyId wrapped (.ended (.ok plaintext)), c.insert wrapped keyId plaintext)
  | .clear false => some (.clear true, .empty)
  | _ => none

namespace State

def start (tasks : List Task) : State := ⟨tasks, .empty, []⟩

def move (base : String) (s : State) : Move → Option State
  | .step i correlation => do
    let t ← s.tasks[i]?
    let (t, c) ← t.step base correlation s.cache
    some { s with tasks := s.tasks.set i t, cache := c }
  | .answer i reply =>
    match s.tasks[i]? with
    | some (.decrypt keyId wrapped (.asking correlation q)) =>
      let t := Task.decrypt keyId wrapped (.answered keyId correlation q reply)
      some { s with tasks := s.tasks.set i t, exchanges := (q, reply) :: s.exchanges }
    | _ => none

def follow (base : String) : State → List Move → Option State
  | s, [] => some s
  | s, a :: as => do follow base (← s.move base a) as

end State

end DumpImport.KeyService
