import ReviewRota.Selector
import ReviewRota.Store
import ReviewRota.Text.Blank

/-!
# Services

A service is a program over the store: a tree of store calls, choices of reviewers, clock readings
and events.  Between two calls of one service the calls of others may happen; `run` lets one
service run alone.
-/

namespace ReviewRota

inductive Service (α : Type) where
  | done (result : Except Error α)
  | call (c : StoreCall) (next : Except Error c.Answer → Service α)
  | choose (candidates : List String) (max : Nat) (next : List String → Service α)
  | readClock (next : Int64 → Service α)
  | note (event : Event) (next : Service α)

namespace Service

variable {α β : Type}

def bind (f : α → Service β) : Service α → Service β
  | .done (.ok a) => f a
  | .done (.error e) => .done (.error e)
  | .call c next => .call c fun answer => bind f (next answer)
  | .choose candidates max next => .choose candidates max fun chosen => bind f (next chosen)
  | .readClock next => .readClock fun now => bind f (next now)
  | .note event next => .note event (bind f next)

instance : Monad Service where
  pure a := .done (.ok a)
  bind s f := s.bind f

def fail (e : Error) : Service α := .done (.error e)

def ofExcept (r : Except Error α) : Service α := .done r

def ask (c : StoreCall) : Service c.Answer := .call c .done

def choice (candidates : List String) (max : Nat) : Service (List String) :=
  .choose candidates max fun chosen => .done (.ok chosen)

def now : Service Int64 := .readClock fun t => .done (.ok t)

def log (event : Event) : Service Unit := .note event (.done (.ok ()))

def attempt : Service α → Service (Except Error α)
  | .done r => .done (.ok r)
  | .call c next => .call c fun answer => attempt (next answer)
  | .choose candidates max next => .choose candidates max fun chosen => attempt (next chosen)
  | .readClock next => .readClock fun t => attempt (next t)
  | .note event next => .note event (attempt next)

def orFail (e : Error) : Option α → Service α
  | some a => pure a
  | none => fail e

def require (field text : String) : Except Error Unit :=
  if Text.isBlank text then .error (.blankField field) else .ok ()

inductive Progress (α : Type) where
  | finished (result : Except Error α)
  | choosing (candidates : List String) (max : Nat) (next : List String → Service α)

def advance (clock : Int64) : Service α → Store → Progress α × Store × List Event
  | .done result, s => (.finished result, s, [])
  | .call c next, s =>
      let reply := s.perform c
      let (progress, s, events) := advance clock (next reply.result) reply.store
      (progress, s, reply.events ++ events)
  | .choose candidates max next, s => (.choosing candidates max next, s, [])
  | .readClock next, s => advance clock (next clock) s
  | .note event next, s =>
      let (progress, s, events) := advance clock next s
      (progress, s, event :: events)

def run (clock : Int64) : Service α → Store → Selector → Reply α × Selector
  | .done result, s, selector => (⟨result, s, []⟩, selector)
  | .call c next, s, selector =>
      let reply := s.perform c
      let (rest, selector) := run clock (next reply.result) reply.store selector
      (⟨rest.result, rest.store, reply.events ++ rest.events⟩, selector)
  | .choose candidates max next, s, selector =>
      let (chosen, selector) := selector.select candidates max
      run clock (next chosen) s selector
  | .readClock next, s, selector => run clock (next clock) s selector
  | .note event next, s, selector =>
      let (rest, selector) := run clock next s selector
      (⟨rest.result, rest.store, event :: rest.events⟩, selector)

end Service

end ReviewRota
