import ReviewRota.Service.PullRequests
import ReviewRota.Service.Teams
import ReviewRota.Service.Users

/-!
# Many clients at one store

Every client runs one service.  A turn lets one client take one step, so that the store calls of
different clients may come in any order; turns also bring new clients, and change which row changes
are rejected and whether the store is open.  A trace is a sequence of turns from the empty database
in which whoever chooses reviewers keeps a contract.
-/

namespace ReviewRota

inductive Action where
  | createTeam (name : String) (members : List Member)
  | setActive (id : String) (isActive : Bool)
  | createPullRequest (id name authorId : String)
  | merge (id : String)
  | reassign (id old : String)
  | deactivateTeam (name : String)
  deriving DecidableEq, Repr

namespace Action

@[reducible] def Answer : Action → Type
  | .createTeam .. => Team
  | .setActive .. => User
  | .createPullRequest .. => PullRequest
  | .merge _ => PullRequest
  | .reassign .. => Reassignment
  | .deactivateTeam _ => TeamDeactivation

def service : (a : Action) → Service a.Answer
  | .createTeam name members => .createTeam name members
  | .setActive id isActive => .setActive id isActive
  | .createPullRequest id name authorId => .createPullRequest id name authorId
  | .merge id => .merge id
  | .reassign id old => .reassign id old
  | .deactivateTeam name => .deactivateTeam name

end Action

/-- What a selector promises about its choice among candidates, given how many it may choose. -/
abbrev Contract := List String → Nat → List String → Prop

namespace Contract

def members : Contract := fun candidates _ chosen => chosen ⊆ candidates

def distinct : Contract := fun candidates max chosen =>
  chosen ⊆ candidates ∧ chosen.Nodup ∧ chosen.length ≤ max

instance (candidates : List String) (max : Nat) (chosen : List String) :
    Decidable (members candidates max chosen) :=
  inferInstanceAs (Decidable (chosen ⊆ candidates))

instance (candidates : List String) (max : Nat) (chosen : List String) :
    Decidable (distinct candidates max chosen) :=
  inferInstanceAs (Decidable (chosen ⊆ candidates ∧ chosen.Nodup ∧ chosen.length ≤ max))

end Contract

namespace Service

variable {α : Type}

/-- One step of a service.  If it is about to choose then it gets `chosen`, and if it is about to
read the clock then it gets `now`. -/
def step (chosen : List String) (now : Int64) (s : Store) : Service α → Service α × Store
  | .done result => (.done result, s)
  | .call c next => (next (s.perform c).result, (s.perform c).store)
  | .choose _ _ next => (next chosen, s)
  | .readClock next => (next now, s)
  | .note _ next => (next, s)

def Admits (contract : Contract) (chosen : List String) : Service α → Prop
  | .choose candidates max _ => contract candidates max chosen
  | .done _ | .call .. | .readClock _ | .note .. => True

instance {contract : Contract}
    [∀ candidates max chosen, Decidable (contract candidates max chosen)] {chosen : List String} :
    (s : Service α) → Decidable (s.Admits contract chosen)
  | .choose candidates max _ => inferInstanceAs (Decidable (contract candidates max chosen))
  | .done _ | .call .. | .readClock _ | .note .. => .isTrue trivial

end Service

structure Client where
  action : Action
  rest : Service action.Answer

structure System where
  store : Store
  clients : List Client

instance : EmptyCollection System := ⟨⟨∅, []⟩⟩

inductive Turn where
  | idle
  | arrive (action : Action)
  | disturb (rejects : Rejects) (isOpen : Bool)
  | act (client : Nat) (chosen : List String) (now : Int64)

namespace System

def act (i : Nat) (chosen : List String) (now : Int64) (s : System) : System :=
  match s.clients[i]? with
  | none => s
  | some client =>
      let (rest, store) := client.rest.step chosen now s.store
      ⟨store, s.clients.set i ⟨client.action, rest⟩⟩

def turn (s : System) : Turn → System
  | .idle => s
  | .arrive action => { s with clients := s.clients ++ [⟨action, action.service⟩] }
  | .disturb rejects isOpen => { s with store := ⟨s.store.database, rejects, isOpen⟩ }
  | .act i chosen now => s.act i chosen now

def after (turns : Nat → Turn) : Nat → System
  | 0 => ∅
  | n + 1 => (after turns n).turn (turns n)

theorem clients_act {s : System} {i j : Nat} {chosen : List String} {now : Int64} :
    (s.act j chosen now).clients[i]? =
      if j = i then
        s.clients[i]?.map fun c => ⟨c.action, (c.rest.step chosen now s.store).1⟩
      else s.clients[i]? := by
  by_cases hji : j = i
  · subst hji
    rw [if_pos rfl]
    cases hj : s.clients[j]? with
    | none => simp only [System.act, hj, Option.map_none]
    | some client =>
        have hlt := (List.getElem?_eq_some_iff.1 hj).1
        simp only [System.act, hj, Option.map_some]
        exact List.getElem?_set_self hlt
  · rw [if_neg hji]
    cases hj : s.clients[j]? with
    | none => simp only [System.act, hj]
    | some client =>
        simp only [System.act, hj]
        exact List.getElem?_set_ne hji

end System

def Turn.Allowed (contract : Contract) (s : System) : Turn → Prop
  | .act i chosen _ => ∀ client, s.clients[i]? = some client → client.rest.Admits contract chosen
  | .idle | .arrive _ | .disturb .. => True

instance {contract : Contract}
    [∀ candidates max chosen, Decidable (contract candidates max chosen)] {s : System} :
    (turn : Turn) → Decidable (turn.Allowed contract s)
  | .act i chosen _ =>
      inferInstanceAs (Decidable (∀ client, s.clients[i]? = some client →
        client.rest.Admits contract chosen))
  | .idle | .arrive _ | .disturb .. => .isTrue trivial

def System.Allows (contract : Contract) (s : System) : List Turn → Prop
  | [] => True
  | turn :: rest => turn.Allowed contract s ∧ (s.turn turn).Allows contract rest

instance System.decidableAllows {contract : Contract}
    [∀ candidates max chosen, Decidable (contract candidates max chosen)] :
    (turns : List Turn) → (s : System) → Decidable (s.Allows contract turns)
  | [], _ => .isTrue trivial
  | turn :: rest, s =>
      @instDecidableAnd _ _ inferInstance (decidableAllows rest (s.turn turn))

def System.Along (P : System → Turn → Bool) (s : System) : List Turn → Bool
  | [] => true
  | turn :: rest => P s turn && (s.turn turn).Along P rest

structure Trace (contract : Contract) where
  turns : Nat → Turn
  allowed : ∀ n, (turns n).Allowed contract (System.after turns n)

namespace Trace

variable {contract weaker : Contract} {t : Trace contract} {i n : Nat}

theorem allowed_of_allows {turns : List Turn} {s : System} (h : s.Allows contract turns) :
    (turns.getD n .idle).Allowed contract ((turns.take n).foldl .turn s) := by
  induction turns generalizing n s with
  | nil => exact trivial
  | cons turn rest ih =>
      cases n with
      | zero => exact h.1
      | succ n => exact ih h.2

theorem after_getD {turns : List Turn} :
    System.after (turns.getD · .idle) n = (turns.take n).foldl .turn ∅ := by
  induction n with
  | zero => rfl
  | succ n ih =>
      rw [System.after, ih, List.take_add_one, List.foldl_append, List.getD_eq_getElem?_getD]
      cases turns[n]? <;> rfl

def ofList (turns : List Turn) (h : (∅ : System).Allows contract turns) : Trace contract where
  turns n := turns.getD n .idle
  allowed n := by
    rw [after_getD]
    exact allowed_of_allows h

def state (t : Trace contract) (n : Nat) : System :=
  .after t.turns n

def store (t : Trace contract) (n : Nat) : Store :=
  (t.state n).store

def database (t : Trace contract) (n : Nat) : Database :=
  (t.store n).database

def client? (t : Trace contract) (i n : Nat) : Option Client :=
  (t.state n).clients[i]?

theorem holds_of_along {P : System → Turn → Bool} {turns : List Turn} {s : System}
    (h : s.Along P turns = true) (hlt : n < turns.length) :
    P ((turns.take n).foldl .turn s) (turns.getD n .idle) = true := by
  induction turns generalizing n s with
  | nil => cases hlt
  | cons turn rest ih =>
      rw [System.Along, Bool.and_eq_true] at h
      cases n with
      | zero => exact h.1
      | succ n => exact ih h.2 (Nat.lt_of_succ_lt_succ hlt)

def weaken (t : Trace contract)
    (h : ∀ candidates max chosen, contract candidates max chosen → weaker candidates max chosen) :
    Trace weaker where
  turns := t.turns
  allowed n := by
    have hallowed := t.allowed n
    cases hturn : t.turns n with
    | idle | arrive | disturb => trivial
    | act i chosen now =>
        rw [hturn] at hallowed
        intro client hclient
        have hadmits := hallowed client hclient
        revert hadmits
        cases client.rest with
        | choose candidates max next => exact h candidates max chosen
        | done | call | readClock | note => exact id

theorem state_succ : t.state (n + 1) = (t.state n).turn (t.turns n) := rfl

end Trace

end ReviewRota
