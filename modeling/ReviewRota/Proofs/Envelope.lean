import Mathlib
import ReviewRota.Http.Api
import ReviewRota.Proofs.Alone

/-!
# What the routes answer

A route answers with what its service returns, as JSON, or with the error of the service or of the
body in an envelope.  A key that stands in the query more than once has no envelope.
-/

namespace ReviewRota.Http

open Json (Value Shape)

def Route.key? : Route → Option String
  | .getTeam => some "team_name"
  | .getReviews => some "user_id"
  | _ => none

def Route.Repeats (request : Request) (route : Route) : Prop :=
  ∃ key, route.key? = some key ∧ 1 < (Text.formValues key request.query).length

def Route.success : Route → Nat
  | .addTeam | .createPullRequest => 201
  | _ => 200

namespace Route

def keyValue (key : String) (request : Request) : String :=
  (Text.formValues key request.query).headD ""

def result (request : Request) (returned : ∀ {α : Type}, Service α → Except Error α) :
    Route → Except Error Value
  | .health => .ok (.record [("status", .text "ok")])
  | .addTeam => do
      let t ← request.payload Team.shape
      return .record [("team", (← returned (.createTeam t.name t.members)).toJson)]
  | .getTeam => do return (← returned (.team (keyValue "team_name" request))).toJson
  | .deactivateTeam => do
      return (← returned (.deactivateTeam (← request.payload teamNameShape))).toJson
  | .setActive => do
      let (id, isActive) ← request.payload activityShape
      return .record [("user", (← returned (.setActive id isActive)).toJson)]
  | .getReviews => do
      let reviews ← returned (.reviewsOf (keyValue "user_id" request))
      return .record [("user_id", .text (keyValue "user_id" request)),
        ("pull_requests", .list (reviews.map PullRequestSummary.toJson))]
  | .createPullRequest => do
      let (id, name, authorId) ← request.payload creationShape
      return .record [("pr", (← returned (.createPullRequest id name authorId)).toJson)]
  | .merge => do
      return .record [("pr", (← returned (.merge (← request.payload mergeShape))).toJson)]
  | .reassign => do
      let (id, old) ← request.payload replacementShape
      return (← returned (.reassign id old)).toJson
  | .stats => do return (← returned .assignmentStats).toJson

theorem ofPath?_path (route : Route) : ofPath? route.path = some route := by
  cases route <;> decide

theorem method_ne_options (route : Route) : route.method ≠ "OPTIONS" := by
  cases route <;> decide

end Route

def Response.ofResult (status : Nat) : Except Error Value → Response
  | .ok v => .ofBody status (.json v)
  | .error e => .ofBody e.code.status (.json (envelope e.report))

section Outcome

variable {clock : Int64} {s : Store} {selector : Selector} {request : Request}

theorem outcome_answered {status : Nat} {service : Service Value} :
    (answered status service).outcome clock s selector =
      (.ok (.ofResult status (service.outcome clock s selector).1),
        (service.outcome clock s selector).2) := by
  refine Service.outcome_attempt_bind fun r s selector => ?_
  cases r with
  | ok v => rfl
  | error e =>
      by_cases hserver : 500 ≤ e.code.status
      · simp only [hserver]
        rfl
      · simp only [hserver]
        rfl

theorem result_forKey {key : String} {f : String → Service Value}
    (hkey : ¬ 1 < (Text.formValues key request.query).length) :
    ((forKey key request f).outcome clock s selector).1 =
      .ok (.ofResult 200 ((f (Route.keyValue key request)).outcome clock s selector).1) := by
  unfold forKey Route.keyValue
  match hvalues : Text.formValues key request.query with
  | [] | [_] => simp only [outcome_answered, List.headD_nil, List.headD_cons]
  | _ :: _ :: _ => simp [hvalues] at hkey

theorem result_forKey_of_repeated {key : String} {f : String → Service Value}
    (hkey : 1 < (Text.formValues key request.query).length) :
    ∃ text, ((forKey key request f).outcome clock s selector).1 =
      .ok (.ofBody 400 (.text text)) := by
  unfold forKey
  match hvalues : Text.formValues key request.query with
  | [] | [_] => simp [hvalues] at hkey
  | _ :: _ :: _ => exact ⟨_, rfl⟩

theorem result_forBody {ρ α : Type} {status : Nat} {shape : Shape ρ α} {f : α → Service Value} :
    ((forBody status shape request f).outcome clock s selector).1 =
      .ok (.ofResult status (do ((f (← request.payload shape)).outcome clock s selector).1)) := by
  rw [forBody, outcome_answered, Service.outcome_ofExcept_bind]
  cases request.payload shape <;> rfl

theorem result_bind_pure {α : Type} {service : Service α} {f : α → Value} :
    ((service >>= fun a => pure (f a)).outcome clock s selector).1 =
      do return f (← (service.outcome clock s selector).1) := by
  rw [Service.outcome_bind_pure]
  cases (service.outcome clock s selector).1 <;> rfl

theorem result_respond {route : Route} (hroute : ¬ route.Repeats request) :
    ((route.respond request).outcome clock s selector).1 =
      .ok (.ofResult route.success
        (route.result request fun service => (service.outcome clock s selector).1)) := by
  have hkey : ∀ key, route.key? = some key →
      ¬ 1 < (Text.formValues key request.query).length :=
    fun key hkey hlength => hroute ⟨key, hkey, hlength⟩
  cases route with
  | health => rfl
  | getTeam => simp only [Route.respond, result_forKey (hkey _ rfl), result_bind_pure]; rfl
  | getReviews => simp only [Route.respond, result_forKey (hkey _ rfl), result_bind_pure]; rfl
  | stats => simp only [Route.respond, outcome_answered, result_bind_pure]; rfl
  | addTeam | deactivateTeam | setActive | createPullRequest | merge | reassign =>
      simp only [Route.respond, result_forBody, result_bind_pure]; rfl

variable (clock s selector)

theorem result_respond_of_repeats {route : Route} (hroute : route.Repeats request) :
    ∃ text, ((route.respond request).outcome clock s selector).1 =
      .ok (.ofBody 400 (.text text)) := by
  obtain ⟨key, hkey, hlength⟩ := hroute
  cases route with
  | getTeam | getReviews =>
      cases hkey
      rw [Route.respond]
      exact result_forKey_of_repeated hlength
  | health | addTeam | deactivateTeam | setActive | createPullRequest | merge | reassign | stats =>
      cases hkey

theorem outcome_respond {route : Route} (hpath : request.path = route.path)
    (hmethod : request.method = route.method) :
    ((respond request).outcome clock s selector).1 =
      ((route.respond request).outcome clock s selector).1.map Response.shared := by
  rw [respond, Service.outcome_bind_pure, respondUnshared, hmethod,
    if_neg route.method_ne_options, hpath, route.ofPath?_path]
  simp only [if_true]

end Outcome

structure Response.Envelopes (r : Response) (e : Error) : Prop where
  status : r.status = e.code.status
  contentType : ("content-type", "application/json") ∈ r.headers
  body : r.body = .json (.record
    [("error", .record [("code", .text e.code.text), ("message", .text e.report.message)])])

/-- What the routes answer, whatever the request and the store are like: the JSON of the route, or
the error in an envelope, unless the key of the route stands in the query more than once. -/
theorem answers_of_routes (route : Route) (request : Request) (hpath : request.path = route.path)
    (hmethod : request.method = route.method) (clock : Int64) (s : Store) (selector : Selector) :
    ∃ response, ((respond request).run clock s selector).1.result = .ok response ∧
      (route.Repeats request → response.status = 400 ∧ ∃ text, response.body = .text text) ∧
      (¬ route.Repeats request →
        match route.result request fun service => (service.run clock s selector).1.result with
        | .ok v => response.status = route.success ∧ response.body = .json v
        | .error e => response.Envelopes e) := by
  have hresponse := outcome_respond clock s selector hpath hmethod
  by_cases hroute : route.Repeats request
  · obtain ⟨text, htext⟩ := result_respond_of_repeats clock s selector hroute
    rw [htext] at hresponse
    exact ⟨_, hresponse, fun _ => ⟨rfl, text, rfl⟩, absurd hroute⟩
  · rw [result_respond hroute] at hresponse
    refine ⟨_, hresponse, fun h => absurd h hroute, fun _ => ?_⟩
    change match route.result request fun service => (service.outcome clock s selector).1 with
      | .ok v => _
      | .error e => _
    cases route.result request fun service => (service.outcome clock s selector).1 with
    | ok v => exact ⟨rfl, rfl⟩
    | error e => exact ⟨rfl, List.mem_append_left _ List.mem_cons_self, rfl⟩

def teamRequest (query : String) : Request :=
  { method := "GET", path := "/team/get", query, headers := [], body := [] }

theorem answers_of_routes_unknown_team :
    (teamRequest "team_name=web").path = Route.getTeam.path ∧
      (teamRequest "team_name=web").method = Route.getTeam.method ∧
      ∃ response, ((respond (teamRequest "team_name=web")).run 100 ∅ .first).1.result =
          .ok response ∧
        response.Envelopes (.unknownTeam "web") := by
  refine ⟨rfl, rfl, ?_⟩
  obtain ⟨response, hresponse, -, henvelope⟩ :=
    answers_of_routes .getTeam (teamRequest "team_name=web") rfl rfl 100 ∅ .first
  have honce : ¬ Route.getTeam.Repeats (teamRequest "team_name=web") := by
    rintro ⟨key, hkey, hlength⟩
    cases hkey
    revert hlength
    decide +kernel
  have hunknown : (Route.getTeam.result (teamRequest "team_name=web") fun service =>
      (service.run 100 ∅ .first).1.result) = .error (.unknownTeam "web") := by cbv
  have hanswer := henvelope honce
  rw [hunknown] at hanswer
  exact ⟨response, hresponse, hanswer⟩

/-- A key that stands in the query twice is reported in plain text. -/
theorem repeated_key_unenveloped :
    ¬ ∀ (route : Route) (request : Request), request.path = route.path →
      request.method = route.method → ∀ (clock : Int64) (s : Store) (selector : Selector),
        ∃ response, ((respond request).run clock s selector).1.result = .ok response ∧
          ((∃ v, 200 ≤ response.status ∧ response.status < 300 ∧ response.body = .json v) ∨
            ∃ (code : ErrorCode) (message : String), response.status = code.status ∧
              response.body = .json (.record
                [("error", .record [("code", .text code.text), ("message", .text message)])])) := by
  intro h
  obtain ⟨response, hresponse, hanswer⟩ :=
    h .getTeam (teamRequest "team_name=web&team_name=ops") rfl rfl 100 ∅ .first
  have hrepeats : Route.getTeam.Repeats (teamRequest "team_name=web&team_name=ops") :=
    ⟨"team_name", rfl, by decide +kernel⟩
  obtain ⟨text, htext⟩ := result_respond_of_repeats 100 ∅ .first hrepeats
  have hactual := outcome_respond 100 ∅ .first
    (show (teamRequest "team_name=web&team_name=ops").path = Route.getTeam.path from rfl) rfl
  rw [htext] at hactual
  cases hactual.symm.trans hresponse
  rcases hanswer with ⟨v, -, -, hbody⟩ | ⟨code, message, -, hbody⟩ <;> cases hbody

end ReviewRota.Http
