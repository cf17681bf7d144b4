import ReviewRota.Http.MediaType
import ReviewRota.Json.Value

/-!
# Requests and responses
-/

namespace ReviewRota.Http

structure Request where
  method : String
  path : String
  query : String
  headers : List (String × String)
  body : Json.Bytes

inductive Body where
  | empty
  | json (v : Json.Value)
  | text (s : String)

structure Response where
  status : Nat
  headers : List (String × String)
  body : Body

def splitTarget (target : String) : String × String :=
  let cs := target.toList.takeWhile (· ≠ '#')
  let local_ :=
    match cs with
    | '/' :: _ => cs
    | _ =>
        let scheme := cs.takeWhile (· ≠ ':')
        match cs.drop scheme.length with
        | ':' :: '/' :: '/' :: rest =>
            match rest.dropWhile fun c => c ≠ '/' && c ≠ '?' with
            | '/' :: rest => '/' :: rest
            | rest => '/' :: rest
        | _ => if cs = ['*'] then cs else []
  (String.ofList (local_.takeWhile (· ≠ '?')), String.ofList ((local_.dropWhile (· ≠ '?')).drop 1))

namespace Request

def ofTarget (method target : String) (headers : List (String × String)) (body : Json.Bytes) :
    Request :=
  let (path, query) := splitTarget target
  { method, path, query, headers, body }

def header? (r : Request) (name : String) : Option String :=
  (r.headers.find? fun (k, _) => String.ofList (k.toList.map Char.toLower) = name).map (·.2)

def hasJson (r : Request) : Bool :=
  (((r.header? "content-type").bind MediaType.parse?).map MediaType.isJson).getD false

end Request

def Body.contentType : Body → List (String × String)
  | .empty => []
  | .json _ => [("content-type", "application/json")]
  | .text _ => [("content-type", "text/plain; charset=utf-8")]

def Response.ofBody (status : Nat) (body : Body) : Response :=
  ⟨status, body.contentType, body⟩

end ReviewRota.Http
