import ReviewRota.Json.Reader
import ReviewRota.PullRequest
import ReviewRota.Team

/-!
# Reading users, teams and pull requests from JSON
-/

namespace ReviewRota

open Json (Reader Field Shape)

namespace Json

def required {α : Type} (name : String) (x : Option α) : Except String α :=
  match x with
  | some a => .ok a
  | none => .error name

def Reader.map {α β : Type} (read : Reader α) (f : α → β) : Reader β := fun bs => do
  let (a, rest) ← read bs
  return (f a, rest)

end Json

structure User.Draft where
  id : Option String := none
  username : Option String := none
  teamName : Option String := none
  isActive : Option Bool := none

def User.shape : Shape User.Draft User where
  name := "User"
  empty := {}
  fields :=
    [⟨"user_id", false, (·.id.isSome), Json.readText.map fun s d => { d with id := s }⟩,
      ⟨"username", false, (·.username.isSome),
        Json.readText.map fun s d => { d with username := s }⟩,
      ⟨"team_name", false, (·.teamName.isSome),
        Json.readText.map fun s d => { d with teamName := s }⟩,
      ⟨"is_active", false, (·.isActive.isSome),
        Json.readBoolean.map fun b d => { d with isActive := b }⟩]
  build d := do
    return ⟨← Json.required "user_id" d.id, ← Json.required "username" d.username,
      ← Json.required "team_name" d.teamName, ← Json.required "is_active" d.isActive⟩

structure Member.Draft where
  userId : Option String := none
  username : Option String := none
  isActive : Option Bool := none

def Member.shape : Shape Member.Draft Member where
  name := "TeamMember"
  empty := {}
  fields :=
    [⟨"user_id", false, (·.userId.isSome),
        Json.readText.map fun s d => { d with userId := s }⟩,
      ⟨"username", false, (·.username.isSome),
        Json.readText.map fun s d => { d with username := s }⟩,
      ⟨"is_active", false, (·.isActive.isSome),
        Json.readBoolean.map fun b d => { d with isActive := b }⟩]
  build d := do
    return ⟨← Json.required "user_id" d.userId, ← Json.required "username" d.username,
      ← Json.required "is_active" d.isActive⟩

structure Team.Draft where
  name : Option String := none
  members : Option (List Member) := none

def Team.shape : Shape Team.Draft Team where
  name := "Team"
  empty := {}
  fields :=
    [⟨"team_name", false, (·.name.isSome), Json.readText.map fun s d => { d with name := s }⟩,
      ⟨"members", true, (·.members.isSome),
        (Json.readList Member.shape.read).map fun ms d => { d with members := ms }⟩]
  build d := do
    return ⟨← Json.required "team_name" d.name, d.members.getD []⟩

/-- A status by its name, also as an object that gives `null` to the name. -/
def Status.read : Reader Status := fun bs => do
  let named (name : String) : Except Json.Failure Status :=
    match Status.ofText name with
    | .ok s => .ok s
    | .error _ => Json.mismatched (.unknownVariant name ["OPEN", "MERGED"])
  match Json.skipBlank bs with
  | 0x22 :: rest =>
      let (name, rest) ← Json.orMalformed (Json.text? rest)
      return (← named name, rest)
  | 0x7b :: rest =>
      let (name, rest) ← Json.readTextAs .variant rest
      let s ← named name
      let rest ← Json.closeWith 0x3a rest
      let (_, rest) ← Json.readNull rest
      return (s, ← Json.closeWith 0x7d rest)
  | _ => throw .malformed

structure PullRequest.Draft where
  id : Option String := none
  name : Option String := none
  authorId : Option String := none
  status : Option Status := none
  reviewers : Option (List String) := none
  createdAt : Option Int64 := none
  mergedAt : Option (Option Int64) := none

def PullRequest.shape : Shape PullRequest.Draft PullRequest where
  name := "PullRequest"
  empty := {}
  fields :=
    [⟨"pull_request_id", false, (·.id.isSome), Json.readText.map fun s d => { d with id := s }⟩,
      ⟨"pull_request_name", false, (·.name.isSome),
        Json.readText.map fun s d => { d with name := s }⟩,
      ⟨"author_id", false, (·.authorId.isSome),
        Json.readText.map fun s d => { d with authorId := s }⟩,
      ⟨"status", false, (·.status.isSome), Status.read.map fun s d => { d with status := s }⟩,
      ⟨"assigned_reviewers", false, (·.reviewers.isSome),
        (Json.readList Json.readText).map fun rs d => { d with reviewers := rs }⟩,
      ⟨"created_at", false, (·.createdAt.isSome),
        Json.readInt64.map fun t d => { d with createdAt := t }⟩,
      ⟨"merged_at", false, (·.mergedAt.isSome),
        (Json.readNullable Json.readInt64).map fun t d => { d with mergedAt := some t }⟩]
  build d := do
    return {
      id := ← Json.required "pull_request_id" d.id
      name := ← Json.required "pull_request_name" d.name
      authorId := ← Json.required "author_id" d.authorId
      status := ← Json.required "status" d.status
      reviewers := ← Json.required "assigned_reviewers" d.reviewers
      createdAt := ← Json.required "created_at" d.createdAt
      mergedAt := d.mergedAt.join }

end ReviewRota
