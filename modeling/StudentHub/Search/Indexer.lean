import StudentHub.Concurrency.Crew
import StudentHub.Ecma.OrderedMap
import StudentHub.Ecma.Value
import StudentHub.Order.Comparator

/-!
# The publication of the candidate index

Typesense is its collections, each with its documents by their ids, and one alias. An indexer
loads the documents into the collection that their digest names, and then switches the alias.
-/

namespace StudentHub.Search

open Ecma JsString Concurrency Process Order

structure SearchDocument where
  id : JsString
  name : JsString
  email : JsString
  phone : JsString
  country : JsString
  university : JsString
  company : Option JsString
  skills : List JsString
  gender : JsString
  profile : JsString
  assignment : JsString
  documents : List JsString
  status : JsString
  approved : Bool
  score : JsNumber
  updatedAtEpoch : JsNumber
  deriving DecidableEq

abbrev Contents := OrderedMap JsString SearchDocument

structure Typesense where
  collections : OrderedMap JsString Contents
  aliased : Option JsString

def Typesense.initial : Typesense := ⟨.empty, none⟩

/-- The documents of an import, `action=upsert`. -/
def upsert (contents : Contents) (documents : List SearchDocument) : Contents :=
  (documents.map fun document => (document.id, document)).foldl
    (fun loaded pair => loaded.set pair.1 pair.2) contents

inductive IndexOp
  | getCollection (name : JsString)
  | createCollection (name : JsString)
  | importDocuments (name : JsString) (documents : List SearchDocument)
  | putAlias (name : JsString)
  | deleteCollection (name : JsString)
  deriving DecidableEq

inductive Receipt
  | unreadable
  | rejected
  | success
  deriving DecidableEq

inductive Body
  | other
  | receipts (lines : List Receipt)
  | metadata (numDocuments : ℕ)
  deriving DecidableEq

structure Response where
  status : ℕ
  body : Body
  deriving DecidableEq

def Response.ok (response : Response) : Bool := 200 ≤ response.status && response.status ≤ 299

/-- The response to a request that had no effect; a missing or an existing collection is told
otherwise. -/
structure Refusal where
  status : ℕ
  isError : 400 ≤ status ∧ status ≠ 404 ∧ status ≠ 409

inductive Fate
  | done
  /-- It has its effect, and the response is lost. -/
  | lost
  | refused (refusal : Refusal)
  | failed

def Fate.isEffective : Fate → Bool
  | done | lost => true
  | refused _ | failed => false

namespace Typesense

variable (service : Typesense)

def serve : IndexOp → Response × Typesense
  | .getCollection name =>
      match service.collections.get? name with
      | some contents => (⟨200, .metadata contents.size⟩, service)
      | none => (⟨404, .other⟩, service)
  | .createCollection name =>
      match service.collections.get? name with
      | some _ => (⟨409, .other⟩, service)
      | none => (⟨201, .other⟩, { service with collections := service.collections.set name .empty })
  | .importDocuments name documents =>
      match service.collections.get? name with
      | some contents =>
          (⟨200, .receipts (List.replicate documents.length .success)⟩,
            { service with
              collections := service.collections.set name (upsert contents documents) })
      | none => (⟨404, .other⟩, service)
  | .putAlias name => (⟨200, .other⟩, { service with aliased := some name })
  | .deleteCollection name =>
      match service.collections.get? name with
      | some _ => (⟨200, .other⟩, { service with collections := service.collections.delete name })
      | none => (⟨404, .other⟩, service)

end Typesense

abbrev IndexOp.Answer (_ : IndexOp) : Type := Option Response

def handle : Handler IndexOp.Answer Fate Typesense :=
  fun _ op fate service =>
    match fate with
    | .done => (some (service.serve op).1, (service.serve op).2)
    | .lost => (none, (service.serve op).2)
    | .refused refusal => (some ⟨refusal.status, .other⟩, service)
    | .failed => (none, service)

inductive PublishError
  | emptyId
  | duplicateId (id : JsString)
  | noDocuments
  | requestFailed
  | unavailable (status : ℕ)
  | incompleteReceipt
  | invalidReceipt
  | rejectedDocuments
  | invalidMetadata
  | countMismatch
  deriving DecidableEq

/-- The indexers of one alias; the digest is that of the fields and the documents. -/
structure Indexing where
  aliasName : JsString
  /-- `left.localeCompare(right)` -/
  localeCompare : Comparator JsString
  digest : List SearchDocument → JsString

structure Publication where
  collection : JsString
  digest : JsString
  documents : ℕ
  deriving DecidableEq

abbrev Work (Value : Type) := Process IndexOp.Answer PublishError Value

def checkIds (ids : List JsString) : List SearchDocument → Except PublishError Unit
  | [] => .ok ()
  | document :: rest =>
      if document.id.trim = [] then
        .error .emptyId
      else if document.id ∈ ids then
        .error (.duplicateId document.id)
      else
        checkIds (document.id :: ids) rest

namespace Indexing

variable (indexing : Indexing)

def canonicalDocuments (documents : List SearchDocument) :
    Except PublishError (List SearchDocument) := do
  checkIds [] documents
  return (indexing.localeCompare.onKey SearchDocument.id).sort documents

def collectionName (canonical : List SearchDocument) : JsString :=
  indexing.aliasName ++ js "_v1_" ++ (indexing.digest canonical).take 16

end Indexing

def createCollection (collection : JsString) : Work Bool :=
  perform (.createCollection collection) fun created =>
    match created with
    | none => thrown .requestFailed
    | some created =>
        if !created.ok && created.status ≠ 409 then
          thrown (.unavailable created.status)
        else
          returned (created.status ≠ 409)

def ensureCollection (collection : JsString) : Work Bool :=
  perform (.getCollection collection) fun existing =>
    match existing with
    | none => thrown .requestFailed
    | some existing =>
        if existing.status = 200 then
          returned false
        else if existing.status ≠ 404 then
          thrown (.unavailable existing.status)
        else
          createCollection collection

def checkLines : List Receipt → Except PublishError Unit
  | [] => .ok ()
  | .unreadable :: _ => .error .invalidReceipt
  | .rejected :: _ => .error .rejectedDocuments
  | .success :: rest => checkLines rest

def checkReceipts (expected : ℕ) : Option Response → Except PublishError Unit
  | none => .error .requestFailed
  | some response =>
      if !response.ok then
        .error (.unavailable response.status)
      else
        match response.body with
        | .receipts lines =>
            if lines.length ≠ expected then .error .incompleteReceipt else checkLines lines
        | .other | .metadata _ => .error .incompleteReceipt

def checkCount (expected : ℕ) : Option Response → Except PublishError Unit
  | none => .error .requestFailed
  | some response =>
      if !response.ok then
        .error (.unavailable response.status)
      else
        match response.body with
        | .metadata numDocuments =>
            if numDocuments ≠ expected then .error .countMismatch else .ok ()
        | .other | .receipts _ => .error .invalidMetadata

def checkSwitched : Option Response → Except PublishError Unit
  | none => .error .requestFailed
  | some response => if !response.ok then .error (.unavailable response.status) else .ok ()

/-- `#import` -/
def importDocuments (collection : JsString) (documents : List SearchDocument) : Work Unit :=
  perform (.importDocuments collection documents) fun response =>
    ofExcept (checkReceipts documents.length response)

def verifyCount (collection : JsString) (expected : ℕ) : Work Unit :=
  perform (.getCollection collection) fun response => ofExcept (checkCount expected response)

def switchAlias (collection : JsString) : Work Unit :=
  perform (.putAlias collection) fun response => ofExcept (checkSwitched response)

/-- What the `try` of a publication does. -/
def fill (collection : JsString) (canonical : List SearchDocument) : Work Unit := do
  importDocuments collection canonical
  verifyCount collection canonical.length
  switchAlias collection

def bestEffortDelete (collection : JsString) : Work Unit :=
  perform (.deleteCollection collection) fun _ => returned ()

def fails (collection : JsString) (created : Bool) (error : PublishError) : Work Publication :=
  if created then do
    bestEffortDelete collection
    thrown error
  else
    thrown error

def publishInto (indexing : Indexing) (canonical : List SearchDocument) (created : Bool) :
    Work Publication := do
  let collection := indexing.collectionName canonical
  match ← (fill collection canonical).attempt with
  | .ok () => returned ⟨collection, indexing.digest canonical, canonical.length⟩
  | .error error => fails collection created error

def publish (indexing : Indexing) (documents : List SearchDocument) : Work Publication := do
  let canonical ← ofExcept (indexing.canonicalDocuments documents)
  if canonical.length = 0 then
    thrown .noDocuments
  else do
    let created ← ensureCollection (indexing.collectionName canonical)
    publishInto indexing canonical created

end StudentHub.Search
