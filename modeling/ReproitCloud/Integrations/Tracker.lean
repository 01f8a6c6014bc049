import ReproitCloud.Data.Json
import ReproitCloud.Lib.DecimalText

/-!
# The issue tracker of an app

An app files its issues with one tracker.  `resolveFor` takes it from the app's row
of `project_integrations` when the row gives a working configuration (`fromConfig`),
and from the environment otherwise (`resolve`).  A read of the row that fails is taken
as if there was no row.

The environment has variables for each app, named with the app id as a suffix, and
on a self-hosted server the bare names as well.  The credentials and the knobs of a
tracker are only looked at for being there: what the modelled code passes on is the
provider and the target project.
-/

namespace ReproitCloud

open Lib

/-- A row of `project_integrations`, as far as a tracker is built from it. -/
structure IntegrationRow where
  provider : String := "github"
  repo : Option String := none
  baseUrl : Option String := none
  userEmail : Option String := none
  extra : Json := .object []
  tokenEnc : Option String := none
deriving Repr

/-- `ConfiguredTracker`: what a link to one of its issues says of it. -/
structure ConfiguredTracker where
  provider : String
  repo : String
deriving DecidableEq, Repr

/-- What the configuration takes from outside the modelled code. -/
structure TrackerEnv where
  /-- `secrets::decrypt`, nothing for a text that is not one of its own. -/
  decrypt : String → Option String
  /-- `std::env::var`. -/
  var : String → Option String
  selfHosted : Bool

/-- A text that is there and is not empty. -/
def nonEmpty (s : Option String) : Option String := s.filter (· ≠ "")

/-- `from_config`. -/
def fromConfig (E : TrackerEnv) (row : IntegrationRow) : Option ConfiguredTracker := do
  let _token ← row.tokenEnc.bind E.decrypt
  let xs (k : String) : Option String := nonEmpty ((row.extra.get k).bind Json.asStr)
  match row.provider with
  | "github" | "gh" =>
    let repo ← nonEmpty row.repo
    return ⟨"github", repo⟩
  | "jira" =>
    let _baseUrl ← nonEmpty row.baseUrl
    let _email ← nonEmpty row.userEmail
    let projectKey ← xs "projectKey"
    return ⟨"jira", projectKey⟩
  | "linear" =>
    let teamId ← xs "teamId"
    return ⟨"linear", teamId⟩
  | "shortcut" | "clubhouse" =>
    let projectId ← xs "projectId"
    let _id ← parseInt64 projectId.toList
    return ⟨"shortcut", "shortcut"⟩
  | _ => none

/-- `env_key`: the suffix of an app in the names of variables. -/
def envKey (app : String) : String :=
  String.ofList (app.toList.map fun c => if c.isAlphanum then c.toUpper else '_')

/-- `env_for`. -/
def envFor (E : TrackerEnv) (base key : String) : Option String :=
  match nonEmpty (E.var (base ++ "__" ++ key)) with
  | some value => some value
  | none => if E.selfHosted then nonEmpty (E.var base) else none

/-- `str::to_ascii_lowercase`. -/
def toAsciiLowercase (s : String) : String := String.ofList (s.toList.map Char.toLower)

/-- `resolve`. -/
def resolve (E : TrackerEnv) (app : String) : Option ConfiguredTracker :=
  let var (base : String) : Option String := envFor E base (envKey app)
  let provider := ((var "REPROIT_TRACKER_PROVIDER").orElse fun _ =>
    var "REPROIT_ISSUE_PROVIDER").getD "github"
  match toAsciiLowercase provider with
  | "github" | "gh" => do
    let repo ← var "REPROIT_GH_REPO"
    let _token ← var "REPROIT_GH_TOKEN"
    return ⟨"github", repo⟩
  | "jira" => do
    let _baseUrl ← var "REPROIT_JIRA_BASE_URL"
    let _email ← var "REPROIT_JIRA_EMAIL"
    let _token ← var "REPROIT_JIRA_API_TOKEN"
    let projectKey ← var "REPROIT_JIRA_PROJECT_KEY"
    return ⟨"jira", projectKey⟩
  | "linear" => do
    let _token ← var "REPROIT_LINEAR_TOKEN"
    let teamId ← var "REPROIT_LINEAR_TEAM_ID"
    return ⟨"linear", teamId⟩
  | "shortcut" | "clubhouse" => do
    let _token ← var "REPROIT_SHORTCUT_TOKEN"
    let projectId ← var "REPROIT_SHORTCUT_PROJECT_ID"
    let _id ← parseInt64 projectId.toList
    return ⟨"shortcut", "shortcut"⟩
  | _ => none

/-- `resolve_for`, of the answer to the read of the row: nothing when the read failed. -/
def resolveFor (E : TrackerEnv) (read : Option (Option IntegrationRow)) (app : String) :
    Option ConfiguredTracker :=
  match read.join.bind (fromConfig E) with
  | some tracker => some tracker
  | none => resolve E app

/-- A row that works is the one that is used. -/
theorem resolveFor_of_row {E : TrackerEnv} {row : IntegrationRow} {tracker : ConfiguredTracker}
    (h : fromConfig E row = some tracker) (app : String) :
    resolveFor E (some (some row)) app = some tracker := by
  simp [resolveFor, h]

/-- Without an answer the environment decides. -/
theorem resolveFor_failed (E : TrackerEnv) (app : String) :
    resolveFor E none app = resolve E app := rfl

/-- On a hosted server only the variables of the app itself count. -/
theorem resolve_hosted {E : TrackerEnv} (hosted : E.selfHosted = false) {app : String}
    (hnone : ∀ base, nonEmpty (E.var (base ++ "__" ++ envKey app)) = none) :
    resolve E app = none := by
  have hvar : ∀ base, envFor E base (envKey app) = none := by
    intro base
    rw [envFor, hnone base, hosted]
    rfl
  simp only [resolve, hvar]
  decide

end ReproitCloud
