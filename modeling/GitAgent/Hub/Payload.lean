import Mathlib.Algebra.Group.Nat.Defs
import Mathlib.Algebra.Group.Int.Defs
import GitAgent.Hub.Event
import GitAgent.Library.Json

/-!
# Payloads of the webhooks

The event that a webhook delivery reports (`adapters/httpapi/webhook.go`), read off the
headers and the JSON body. The delivery id is a header, and so is the action, except that
GitLab also names it in the body.
-/

namespace Hub

/-- The headers that are read. A header that is missing is the empty text. -/
structure Header where
  githubDelivery : String := ""
  githubEvent : String := ""
  gitlabEventUuid : String := ""
  gitlabEvent : String := ""
  hubSignature256 : String := ""
  gitlabToken : String := ""
  deriving DecidableEq, Repr

/-- The number of characters of the description of a pull request that are kept. -/
def prBodyMaxLen : ℕ := 4000

/-- The integer with 53 significant bits that is nearest to `n`. Of two it is the even one. -/
def roundToFloat (n : ℤ) : ℤ :=
  let shift := Nat.log2 n.natAbs - 52
  let unit := 2 ^ shift
  let quotient := n.natAbs / unit
  let rest := n.natAbs % unit
  let up := unit < 2 * rest || unit = 2 * rest && quotient % 2 = 1
  n.sign * ((if up then quotient + 1 else quotient) * unit : ℕ)

/-- The integer part of a number, which has 64 bits. -/
def asInt : Option Json → ℤ
  | some (.int n) => fit (roundToFloat n)
  | some (.float num den) => fit (num.tdiv den)
  | _ => 0
where
  /-- An integer that has more bits becomes the least one. -/
  fit (n : ℤ) : ℤ := if -2 ^ 63 ≤ n ∧ n < 2 ^ 63 then n else -2 ^ 63

/-- `beforeSHA`: a commit that is written in zeros only is none. -/
def beforeSha (p : Json.Fields) : String :=
  let before := Json.asString (Json.get p "before")
  if before.toList.all (· = '0') then "" else before

/-- The files of a list that are not in `out` yet are appended to it. -/
def addFiles (out : List String) : List Json → List String
  | .str path :: files => addFiles (if path ∈ out then out else out ++ [path]) files
  | _ :: files => addFiles out files
  | [] => out

/-- `changedFiles`: the files that the commits add, modify or remove, in their order and
without repetitions. -/
def changedFiles (p : Json.Fields) : List String :=
  (Json.asArray (Json.get p "commits")).foldl
    (fun out c =>
      let cm := (Json.asObject (some c)).getD []
      ["added", "modified", "removed"].foldl
        (fun out k => addFiles out (Json.asArray (Json.get cm k))) out)
    []

/-- `prMeta`: the number, the title and the description of a pull request. -/
def prMeta (pr : Json.Fields) (numberKey bodyKey : String) : ℤ × String × String :=
  (asInt (Json.get pr numberKey), Json.asString (Json.get pr "title"),
    String.ofList ((Json.asString (Json.get pr bodyKey)).toList.take prBodyMaxLen))

/-- The event that a delivery of GitHub reports. -/
def parseGitHub (header : Header) (p : Json.Fields) : Event :=
  let e : Event := { deliveryId := header.githubDelivery, action := header.githubEvent }
  match e.action with
  | "push" =>
      { e with
        commitSha := Json.asString (Json.get p "after")
        ref := Json.asString (Json.get p "ref")
        beforeSha := if Json.asBool (Json.get p "forced") then "" else beforeSha p
        changedFiles := changedFiles p }
  | "pull_request" =>
      match Json.asObject (Json.get p "pull_request") with
      | some pr =>
          let head := Json.asObject (Json.get pr "head")
          let base := Json.asObject (Json.get pr "base")
          let sha := (head.map fun head => Json.asString (Json.get head "sha")).getD ""
          let (number, title, body) := prMeta pr "number" "body"
          { e with
            commitSha := sha
            ref := (head.map fun head => Json.asString (Json.get head "ref")).getD ""
            baseSha := (base.map fun base => Json.asString (Json.get base "sha")).getD ""
            headSha := sha
            prNumber := number
            prTitle := title
            prBody := body }
      | none => e
  | _ => e

/-- The event that a delivery of GitLab reports. `lower` is the lower case of a character. -/
def parseGitLab (lower : Char → Char) (header : Header) (p : Json.Fields) : Event :=
  let kind := Json.asString (Json.get p "object_kind")
  let e : Event :=
    { deliveryId := header.gitlabEventUuid
      action :=
        if kind = "" then
          String.ofList (header.gitlabEvent.toList.map fun c =>
            if lower c = ' ' then '_' else lower c)
        else kind }
  let push : Event :=
    { e with
      commitSha := Json.asString (Json.get p "checkout_sha")
      ref := Json.asString (Json.get p "ref")
      beforeSha := beforeSha p
      changedFiles := changedFiles p }
  match e.action with
  | "push" => push
  | "tag_push" => push
  | "merge_request" =>
      match Json.asObject (Json.get p "object_attributes") with
      | some attrs =>
          let last := Json.asObject (Json.get attrs "last_commit")
          let refs := Json.asObject (Json.get attrs "diff_refs")
          let lastSha := (last.map fun last => Json.asString (Json.get last "id")).getD ""
          let head := (refs.map fun refs => Json.asString (Json.get refs "head_sha")).getD ""
          let sha := if head ≠ "" then head else lastSha
          let (number, title, body) := prMeta attrs "iid" "description"
          { e with
            commitSha := sha
            ref := Json.asString (Json.get attrs "source_branch")
            baseSha := (refs.map fun refs => Json.asString (Json.get refs "base_sha")).getD ""
            headSha := sha
            prNumber := number
            prTitle := title
            prBody := body }
      | none => e
  | _ => e

/-- `parseEvent`: the event that a delivery reports. A body that is not a JSON object has no
fields. A delivery without an id or an action is dropped. -/
def parseEvent (lower : Char → Char) (provider : String) (header : Header)
    (body : Option Json) : Option Event :=
  let p := (Json.asObject body).getD []
  let e : Event :=
    match provider with
    | "github" => parseGitHub header p
    | "gitlab" => parseGitLab lower header p
    | _ => { deliveryId := "", action := "" }
  if e.deliveryId ≠ "" ∧ e.action ≠ "" then some e else none

example :
    parseEvent Char.toLower "github" { githubDelivery := "d", githubEvent := "push" }
      (some (.obj [("after", .str "abc"), ("before", .str "000abc"),
        ("commits", .arr [.obj [("added", .arr [.str "a.go"]), ("modified", .arr [.str "b.go"])],
          .obj [("modified", .arr [.str "b.go", .str "c.go"])]])])) =
      some { deliveryId := "d", action := "push", commitSha := "abc", beforeSha := "000abc",
             changedFiles := ["a.go", "b.go", "c.go"] } := by
  decide

end Hub
