import PyScoped.Foundation.Instants
import PyScoped.Foundation.Interleaving
import PyScoped.Foundation.Rows
import PyScoped.Legacy.Errors
import PyScoped.Legacy.Types

/-! The search index of version 1 on SQLite: a table of texts, and a full-text table
that has their contents under the same rowids. A call makes one statement after the
other, none of them in a transaction. -/

namespace PyScoped.Legacy.SearchIndex
open Foundation

/-- A text of an object, without the row that it is stored in. -/
@[ext]
structure Text where
  objectType : String
  ownerId : String
  fieldName : String
  content : String
  scopeId : Option String
  deriving DecidableEq

/-- A row of `search_index`, with its rowid. -/
structure Entry where
  rowid : Int
  id : String
  objectId : String
  text : Text
  indexedAt : Moment

/-- A row of `search_index_fts`. -/
structure FullText where
  rowid : Int
  content : String
  deriving DecidableEq

def Entry.fullText (entry : Entry) : FullText := ⟨entry.rowid, entry.text.content⟩

/-- How far a call has come: it has listed rowids, of which some are still to be
dropped; it has removed the entries of its object and added some; or it has added
one more, which has no full-text row yet. -/
inductive Phase where
  | begun
  | listed (pending : List Int)
  | adding (added : List Entry)
  | pairing (added : List Entry) (entry : Entry)

/-- A call in progress. It is alone as long as there is no other of its object. -/
structure Work (ι : Type) where
  client : ι
  objectId : String
  alone : Bool
  phase : Phase

/-- What an `index_object` has left that has returned. -/
structure Report where
  alone : Bool
  complete : Bool
  deriving DecidableEq

/-- The tables. Remembered are the calls in progress, what those have left that have
returned, and whether a statement of one has found a full-text row in its way or its
own entry gone. -/
structure Store (ι : Type) where
  entries : Rows Entry.rowid
  fullTexts : Rows FullText.rowid
  works : Rows (@Work.client ι)
  blocked : Bool
  reports : List Report

inductive Request where
  /-- A call begins. -/
  | start (objectId : String)
  /-- A call is over. An `index_object` that returns had to leave some texts. -/
  | finish (left : Option (List Text))
  | now
  | generateId
  | listIds (objectId : String)
  | listRowids (objectId : String)
  | deleteFullText (rowid : Int)
  | deleteEntries (objectId : String)
  | insertEntry (id objectId : String) (text : Text) (indexedAt : Moment)
  | findRowid (entryId : String)
  | insertFullText (fullText : FullText)

def Reply : Request → Type
  | .now => Moment
  | .generateId => ScopedId
  | .listIds _ => List String
  | .listRowids _ => List Int
  | .findRowid _ => Option Int
  | _ => Unit

abbrev Program (α : Type) := Prog Request Reply Raised α

/-- The rowid is any that is not in use. -/
structure Choice where
  failure : Option Raised
  now : Moment
  id : ScopedId
  rowid : Int

variable {ι : Type}

/-- The index before anything was indexed. -/
def Store.empty : Store ι := ⟨.empty, .empty, .empty, false, []⟩

namespace Store

variable (store : Store ι)

def entriesOf (objectId : String) : List Entry := store.entries.list.filter fun entry => entry.objectId = objectId

/-- The object has these texts and no others, each with its full-text row. -/
def Leaves (objectId : String) (texts : List Text) : Prop :=
  (store.entriesOf objectId).map Entry.text = texts ∧ ∀ entry ∈ store.entriesOf objectId, entry.fullText ∈ store.fullTexts.list

instance (objectId : String) (texts : List Text) : Decidable (store.Leaves objectId texts) := inferInstanceAs (Decidable (_ ∧ _))

variable [DecidableEq ι]

/-- The call of a client comes further. -/
def proceed (client : ι) (change : Phase → Phase) : Rows (@Work.client ι) :=
  store.works.update (fun work => work.client = client) (fun work => { work with phase := change work.phase }) fun _ => rfl

/-- A call begins. Those of the same object are no longer alone. -/
def started (client : ι) (objectId : String) : Option (Rows (@Work.client ι)) :=
  (store.works.update (fun work => work.objectId = objectId) (fun work => { work with alone := false }) fun _ => rfl).insert
    ⟨client, objectId, store.works.list.all fun work => work.objectId ≠ objectId, .begun⟩

def finished (client : ι) (left : Option (List Text)) : List Report :=
  match store.works.find client, left with
  | some work, some texts => ⟨work.alone, decide (store.Leaves work.objectId texts)⟩ :: store.reports
  | _, _ => store.reports

end Store

def Phase.list (rowids : List Int) : Phase → Phase
  | .begun => .listed rowids
  | phase => phase

def Phase.drop (rowid : Int) : Phase → Phase
  | .listed pending => .listed (pending.erase rowid)
  | phase => phase

def Phase.clear : Phase → Phase
  | .listed _ => .adding []
  | phase => phase

def Phase.add (entry : Entry) : Phase → Phase
  | .adding added => .pairing added entry
  | phase => phase

def Phase.pair : Phase → Phase
  | .pairing added entry => .adding (added ++ [entry])
  | phase => phase

variable [DecidableEq ι]

/-- Any statement may fail, and so cut off the call that it belongs to. -/
@[simp] def serve : Service Request Reply Raised (Store ι) ι Choice := fun client choice store request =>
  match request, choice.failure with
  | .start objectId, _ => (store.started client objectId).map fun works => (.ok (), { store with works := works })
  | .finish left, _ => some (.ok (), { store with
      works := store.works.delete fun work => work.client = client
      reports := store.finished client left })
  | .now, _ => some (.ok choice.now, store)
  | .generateId, _ => some (.ok choice.id, store)
  | _, some error => some (.error error, store)
  | .listIds objectId, none => some (.ok ((store.entriesOf objectId).map Entry.id), store)
  | .listRowids objectId, none =>
    let rowids := (store.entriesOf objectId).map Entry.rowid
    some (.ok rowids, { store with works := store.proceed client (Phase.list rowids) })
  | .deleteFullText rowid, none => some (.ok (), { store with
      fullTexts := store.fullTexts.delete fun fullText => fullText.rowid = rowid
      works := store.proceed client (Phase.drop rowid) })
  | .deleteEntries objectId, none => some (.ok (), { store with
      entries := store.entries.delete fun entry => entry.objectId = objectId
      works := store.proceed client Phase.clear })
  | .insertEntry id objectId text indexedAt, none =>
    if store.entries.list.any fun entry => entry.id = id then some (.error (.unique "search_index"), store)
    else (store.entries.insert ⟨choice.rowid, id, objectId, text, indexedAt⟩).map fun entries => (.ok (), { store with
      entries := entries
      works := store.proceed client (Phase.add ⟨choice.rowid, id, objectId, text, indexedAt⟩) })
  | .findRowid entryId, none =>
    match store.entries.list.find? fun entry => entry.id = entryId with
    | some entry => some (.ok (some entry.rowid), store)
    | none => some (.ok none, { store with blocked := true })
  | .insertFullText fullText, none =>
    match store.fullTexts.insert fullText with
    | some fullTexts => some (.ok (), { store with fullTexts := fullTexts, works := store.proceed client Phase.pair })
    | none => some (.error (.unique "search_index_fts"), { store with blocked := true })

section Strategy

/-- `SQLiteFTS5Strategy.index_entry` -/
def indexEntry (entryId content : String) : Program Unit := do
  let row : Option Int ← Prog.perform (Request.findRowid entryId)
  match row with
  | none => throw (.other "'NoneType' object is not subscriptable")
  | some rowid => Prog.perform (Request.insertFullText ⟨rowid, content⟩)

/-- `SQLiteFTS5Strategy.remove_entries` -/
def removeEntries (objectId : String) : Program Unit := do
  let rowids : List Int ← Prog.perform (Request.listRowids objectId)
  rowids.forM fun rowid => Prog.perform (Request.deleteFullText rowid)
  Prog.perform (Request.deleteEntries objectId)

end Strategy

/-- The arguments of `index_object`. -/
structure Indexed where
  objectId : String
  objectType : String
  ownerId : String
  data : List (String × Json)
  scopeId : Option String
  fields : Option (List String)

-- Python's `str` of the values that are no strings
variable (str : Json → String)

def notNone : Json → Bool
  | .null => false
  | _ => true

/-- `_to_text`; a number or another value is written by `str`. -/
def toText : Json → String
  | .str value => value
  | .arr items => " ".intercalate ((items.filter notNone).map (written str))
  | .obj members => " ".intercalate (((members.map Prod.snd).filter notNone).map (written str))
  | value => str value
where
  /-- `str` of a value. -/
  written (str : Json → String) : Json → String
    | .str value => value
    | value => str value

/-- The texts that are indexed: those of the chosen fields that are not empty. -/
def Indexed.texts (indexed : Indexed) : List Text :=
  (indexed.fields.getD (indexed.data.map Prod.fst)).filterMap fun key =>
    match (indexed.data.lookup key).filter notNone with
    | none => none
    | some value =>
      let text := toText str value
      if text = "" then none else some ⟨indexed.objectType, indexed.ownerId, key, text, indexed.scopeId⟩

/-- The loop body of `index_object`. -/
def addText (objectId : String) (ts : Moment) (text : Text) : Program Unit := do
  let entryId : ScopedId ← Prog.perform Request.generateId
  let _ : Unit ← Prog.perform (Request.insertEntry entryId.text objectId text ts)
  indexEntry entryId.text text.content

def indexObject (indexed : Indexed) : Program Nat := do
  removeEntries indexed.objectId
  let ts : Moment ← Prog.perform Request.now
  (indexed.texts str).forM (addText indexed.objectId ts)
  return (indexed.texts str).length

def removeObject (objectId : String) : Program Nat := do
  let ids : List String ← Prog.perform (Request.listIds objectId)
  removeEntries objectId
  return ids.length

def reindexObject (indexed : Indexed) : Program Nat := indexObject str indexed

inductive Call where
  | indexObject (indexed : Indexed)
  | reindexObject (indexed : Indexed)
  | removeObject (objectId : String)

def Call.objectId : Call → String
  | .indexObject indexed | .reindexObject indexed => indexed.objectId
  | .removeObject objectId => objectId

def Call.body : Call → Program Nat
  | .indexObject indexed => SearchIndex.indexObject str indexed
  | .reindexObject indexed => SearchIndex.reindexObject str indexed
  | .removeObject objectId => SearchIndex.removeObject objectId

/-- The texts that a call has to leave. -/
def Call.left : Call → Option (List Text)
  | .indexObject indexed | .reindexObject indexed => some (indexed.texts str)
  | .removeObject _ => none

/-- A call, with the remarks where it begins and where it is over. -/
def invoke (call : Call) : Program Nat := do
  let _ : Unit ← Prog.perform (Request.start call.objectId)
  let result ← (call.body str).attempt
  let _ : Unit ← Prog.perform (Request.finish (result.toOption.bind fun _ => call.left str))
  Prog.ofExcept result

/-- Clients that make one call after the other, and may depend on what the calls
before have returned or raised. -/
inductive Client : Program Unit → Prop where
  | done : Client (.pure ())
  | call (made : Call) (next : Except Raised Nat → Program Unit) (each : ∀ result, Client (next result)) :
      Client ((invoke str made).attempt.bind next)

section Search

/-- What the queries of `search` restrict the entries to. -/
def visible (principalId : String) (objectType scopeId : Option String) (entry : Entry) : Bool :=
  entry.text.ownerId = principalId && objectType.all (· = entry.text.objectType) && scopeId.all (some · = entry.text.scopeId)

/-- The join of `search`, before it is ordered and cut off: entries with a full-text
row that matches the query. -/
def search (store : Store ι) (found : String → Bool) (principalId : String) (objectType scopeId : Option String) : List Entry :=
  (store.fullTexts.list.filter fun fullText => found fullText.content).flatMap fun fullText =>
    store.entries.list.filter fun entry => entry.rowid = fullText.rowid && visible principalId objectType scopeId entry

end Search

end PyScoped.Legacy.SearchIndex
