import Openstack.Gateway.RequestContext
import Openstack.Lib.Numbered

/-!
# SES

`crates/services/ses/src/store.rs` and `provider.rs`, for one account and region. The XML of the answers
is left out. The message id and the time of a request are arguments.
-/
namespace Openstack.Ses

open Gateway (RequestContext)

structure Identity where
  identity : String
  verified : Bool
  deriving DecidableEq, Repr

structure StoredEmail where
  messageId : String
  source : String
  destinationTo : List String
  destinationCc : List String
  destinationBcc : List String
  subject : String
  bodyText : String
  bodyHtml : String
  sentAt : Int
  deriving DecidableEq, Repr

structure SesStore where
  identities : StrMap Identity := ∅
  emails : StrMap StoredEmail := ∅

inductive Answer where
  | noResult (action : String)
  | verificationToken (token : String)
  | identities (names : List String)
  | verificationAttributes (attributes : List (String × Bool))
  | messageId (action id : String)
  | error (code message : String) (status : Nat)
  | notImplemented (operation : String)
  deriving DecidableEq, Repr

def Answer.succeeds : Answer → Bool
  | .error _ _ _ | .notImplemented _ => false
  | _ => true

/-- What a request does not determine. -/
structure Env where
  messageId : String
  now : Int

def required (parameter : String) : Answer := .error "MissingParameter" (parameter ++ " required") 400

/-- The key of an address. -/
def addressKey (list : String) (idx : Nat) : String := Numbered.indexed (list ++ ".") idx ""

/-- `addresses_from_params`; the loop ends at the first number that the query lacks. -/
def addressesFromParams (ctx : RequestContext) (list : String) : List String :=
  Numbered.collect (fun idx => ctx.queryParams[addressKey list idx]?) (ctx.queryParams.size + 1) 1

theorem addressesFromParams_ends (ctx : RequestContext) (list : String) :
    ctx.queryParams[addressKey list (1 + (addressesFromParams ctx list).length)]? = none := by
  obtain ⟨n, enough, missing⟩ := Numbered.exists_missing ctx.queryParams
    (fun i j (same : addressKey list i = addressKey list j) => Numbered.indexed_inj same) 1
  exact @Numbered.collect_ends _ (fun idx => ctx.queryParams[addressKey list idx]?) _ _ _ missing enough

/-- Addresses are read from the query only. -/
theorem addressesFromParams_of_body {ctx : RequestContext} (body : ctx.queryParams = ∅) (list : String) :
    addressesFromParams ctx list = [] :=
  Numbered.collect_of_missing _ (by simp [body])

section Operations

variable (env : Env) (ctx : RequestContext) (store : SesStore)

def verifyEmailIdentity : Answer × SesStore :=
  match ctx.strParam "EmailAddress" with
  | none => (required "EmailAddress", store)
  | some email =>
    (.noResult "VerifyEmailIdentity",
      { store with identities := store.identities.insert email ⟨email, true⟩ })

def verificationToken (domain : String) : String :=
  String.ofList (domain.toList.map fun c => if c = '.' then '-' else c) ++ "-verification-token"

def verifyDomainIdentity : Answer × SesStore :=
  match ctx.strParam "Domain" with
  | none => (required "Domain", store)
  | some domain =>
    (.verificationToken (verificationToken domain),
      { store with identities := store.identities.insert domain ⟨domain, true⟩ })

def listIdentities : Answer × SesStore := (.identities store.identities.keys, store)

def getIdentityVerificationAttributes : Answer × SesStore :=
  (.verificationAttributes ((addressesFromParams ctx "Identities.member").filterMap fun identity =>
    store.identities[identity]?.map fun found => (identity, found.verified)), store)

def email (source : String) : StoredEmail where
  messageId := env.messageId
  source := source
  destinationTo := addressesFromParams ctx "Destination.ToAddresses.member"
  destinationCc := addressesFromParams ctx "Destination.CcAddresses.member"
  destinationBcc := addressesFromParams ctx "Destination.BccAddresses.member"
  subject := (ctx.strParam "Message.Subject.Data").getD ""
  bodyText := (ctx.strParam "Message.Body.Text.Data").getD ""
  bodyHtml := (ctx.strParam "Message.Body.Html.Data").getD ""
  sentAt := env.now

def sendEmail : Answer × SesStore :=
  match ctx.strParam "Source" with
  | none => (required "Source", store)
  | some source =>
    (.messageId "SendEmail" env.messageId,
      { store with emails := store.emails.insert env.messageId (email env ctx source) })

def rawEmail : StoredEmail where
  messageId := env.messageId
  source := (ctx.strParam "Source").getD "unknown"
  destinationTo := []
  destinationCc := []
  destinationBcc := []
  subject := ""
  bodyText := (ctx.strParam "RawMessage.Data").getD ""
  bodyHtml := ""
  sentAt := env.now

def sendRawEmail : Answer × SesStore :=
  (.messageId "SendRawEmail" env.messageId,
    { store with emails := store.emails.insert env.messageId (rawEmail env ctx) })

def deleteIdentity : Answer × SesStore :=
  match ctx.strParam "Identity" with
  | none => (required "Identity", store)
  | some identity =>
    (.noResult "DeleteIdentity", { store with identities := store.identities.erase identity })

def dispatch : Answer × SesStore :=
  match ctx.operation with
  | "VerifyEmailIdentity" => verifyEmailIdentity ctx store
  | "VerifyDomainIdentity" => verifyDomainIdentity ctx store
  | "ListIdentities" => listIdentities store
  | "GetIdentityVerificationAttributes" => getIdentityVerificationAttributes ctx store
  | "SendEmail" => sendEmail env ctx store
  | "SendRawEmail" => sendRawEmail env ctx store
  | "DeleteIdentity" => deleteIdentity ctx store
  | operation => (.notImplemented operation, store)

end Operations

/-- An email that a request stores, when its parameters are in the body, goes to nobody. -/
theorem addresses_of_body {env : Env} {ctx : RequestContext} {store : SesStore} {id : String}
    {stored : StoredEmail} (body : ctx.queryParams = ∅) (operation : ctx.operation = "SendEmail")
    (new : store.emails[id]? ≠ some stored) (found : (dispatch env ctx store).2.emails[id]? = some stored) :
    stored.destinationTo = [] ∧ stored.destinationCc = [] ∧ stored.destinationBcc = [] := by
  simp only [dispatch, operation, sendEmail] at found
  split at found
  · exact absurd found new
  · rw [StrMap.getElem?_insert] at found
    split at found
    · cases found
      exact ⟨addressesFromParams_of_body body _, addressesFromParams_of_body body _,
        addressesFromParams_of_body body _⟩
    · exact absurd found new

end Openstack.Ses
