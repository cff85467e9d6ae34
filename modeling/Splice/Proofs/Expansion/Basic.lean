import Mathlib.Tactic.Common
import Splice.Item
import Splice.Session.Basic

/-!
# Expansion without a stack

A session collects the children of a file in a frame on a stack. This module has the same process
as a recursion that returns the tree of a file as a value. What does not change in a run is a
`Plan`; what files nested in one another hand on to each other is a `Ledger`: the identities that
have been met, the calls to the loader and the log. There is no stack, and no list of children that
grows.

`Plan.collect` turns the items of one file into its children, one after the other; `Plan.fetch`
finds the file of a request, if it has an identity and can be read (`Plan.find`), and `Plan.expand`
puts the two together: a file at a given depth is expanded by collecting its items, and a request in
it is refused at the greatest depth and otherwise leads to the expansion of the file it asks for,
one level deeper. The recursion ends because the depth is bounded.
-/

namespace Splice

/-- What a run hands on from file to file, and leaves behind besides its tree. -/
structure Ledger where
  /-- The identities that a request for one time only is skipped for. -/
  visited : List String
  /-- What the loader was asked, in order. -/
  calls : List Call
  /-- The log, in order. -/
  log : List Log.Record

/-- The result of expanding something, and the ledger after it, which holds also when there is no
result. -/
abbrev Expansion (α : Type) := Ledger × Except Fault α

/-- The expansion with its result changed, if it has one. -/
def Expansion.map {α β : Type} (f : α → β) (expansion : Expansion α) : Expansion β :=
  (expansion.1, expansion.2.map f)

/-- Two changes of a result are one. -/
lemma Expansion.map_map {α β γ : Type} (f : α → β) (g : β → γ) (expansion : Expansion α) :
    (expansion.map f).map g = expansion.map (g ∘ f) := by
  obtain ⟨ledger, fault | result⟩ := expansion <;> rfl

namespace Ledger

/-- The ledger at the start of a run. -/
def empty : Ledger :=
  ⟨[], [], []⟩

/-- Counts an identity as met. -/
def visit (ledger : Ledger) (identity : String) : Ledger :=
  { ledger with
    visited :=
      if identity ∈ ledger.visited then ledger.visited else ledger.visited ++ [identity] }

/-- Adds a record to the log. -/
def note (ledger : Ledger) (record : Log.Record) : Ledger :=
  { ledger with log := ledger.log ++ [record] }

/-- Enters that the loader was asked for the identity of a path, and what it warned of. -/
def identify (ledger : Ledger) (loader : Loader) (path : String) : Ledger :=
  { ledger with
    calls := ledger.calls ++ [.canonical path]
    log := ledger.log ++ (loader.warnings path).map .warning }

/-- Enters that the loader was asked for the content of a path. -/
def read (ledger : Ledger) (path : String) : Ledger :=
  { ledger with calls := ledger.calls ++ [.read path] }

/-- The ledger after the file at a path was asked for: its identity was, and if it has one, that
counts as met if the file is asked for one time only, and its content was asked for. -/
def enroll (ledger : Ledger) (loader : Loader) (once : Bool) (path : String) : Ledger :=
  match loader.canonical path with
  | .error _ => ledger.identify loader path
  | .ok identity =>
    if once then ((ledger.identify loader path).visit identity).read path
    else (ledger.identify loader path).read path

/-- Whether the identity of a path was met. -/
def HasMet (ledger : Ledger) (loader : Loader) (path : String) : Prop :=
  ∃ identity ∈ ledger.visited, loader.canonical path = .ok identity

instance (ledger : Ledger) (loader : Loader) (path : String) :
    Decidable (ledger.HasMet loader path) :=
  inferInstanceAs (Decidable (∃ identity ∈ ledger.visited, loader.canonical path = .ok identity))

end Ledger

/-- What a loader is asked when the file at a path is looked for: a path without an identity is not
read. -/
def Loader.questions (loader : Loader) (path : String) : List Call :=
  match loader.canonical path with
  | .error _ => [.canonical path]
  | .ok _ => [.canonical path, .read path]

section Enroll

variable {ledger : Ledger} {loader : Loader} {path identity : String}

/-- A path with an identity is read. -/
lemma Loader.questions_of_ok (h : loader.canonical path = .ok identity) :
    loader.questions path = [.canonical path, .read path] := by
  rw [questions, h]

/-- The identity of the path is asked for in any case. -/
lemma Loader.canonical_mem_questions (loader : Loader) (path : String) :
    .canonical path ∈ loader.questions path := by
  unfold questions
  cases loader.canonical path <;> exact List.mem_cons_self

/-- No other path is read, and this one only if it has an identity. -/
lemma Loader.eq_of_read_mem_questions {other : String} (h : .read other ∈ loader.questions path) :
    other = path ∧ ∃ identity, loader.canonical path = .ok identity := by
  unfold questions at h
  cases hidentity : loader.canonical path with
  | error text =>
    rw [hidentity] at h
    simp at h
  | ok identity =>
    rw [hidentity] at h
    exact ⟨by simpa using h, identity, rfl⟩

/-- The identity of a path was met exactly if it is among those that were. -/
lemma Ledger.hasMet_iff (h : loader.canonical path = .ok identity) :
    ledger.HasMet loader path ↔ identity ∈ ledger.visited := by
  constructor
  · rintro ⟨other, hmem, hother⟩
    cases h.symm.trans hother
    exact hmem
  · intro hmem
    exact ⟨identity, hmem, h⟩

/-- Asking for a file asks the questions for it. -/
lemma Ledger.enroll_calls (ledger : Ledger) (loader : Loader) (once : Bool) (path : String) :
    (ledger.enroll loader once path).calls = ledger.calls ++ loader.questions path := by
  unfold enroll Loader.questions
  cases loader.canonical path with
  | error text => rfl
  | ok identity => cases once <;> simp [identify, visit, read]

/-- Asking for a file adds the warnings of the loader to the log. -/
lemma Ledger.enroll_log (ledger : Ledger) (loader : Loader) (once : Bool) (path : String) :
    (ledger.enroll loader once path).log = ledger.log ++ (loader.warnings path).map .warning := by
  unfold enroll
  cases loader.canonical path with
  | error text => rfl
  | ok identity => cases once <;> rfl

/-- Asking for a file only adds identities. -/
lemma Ledger.visited_prefix_enroll (ledger : Ledger) (loader : Loader) (once : Bool)
    (path : String) : ledger.visited <+: (ledger.enroll loader once path).visited := by
  unfold enroll
  cases loader.canonical path with
  | error text => exact List.prefix_rfl
  | ok identity =>
    by_cases hmem : identity ∈ ledger.visited <;> cases once <;>
      simp [identify, visit, read, hmem]

/-- Asking for a file one time only enters its identity, if that is a new one, and otherwise no
identity is entered. -/
lemma Ledger.enroll_visited (h : loader.canonical path = .ok identity) (once : Bool)
    (hnew : ¬ (once = true ∧ ledger.HasMet loader path)) :
    (ledger.enroll loader once path).visited =
      if once then ledger.visited ++ [identity] else ledger.visited := by
  rw [Ledger.hasMet_iff h] at hnew
  cases once with
  | false => simp [enroll, h, identify, read]
  | true =>
    have hfresh : identity ∉ ledger.visited := by simpa using hnew
    simp [enroll, h, identify, visit, read, hfresh]

end Enroll

/-- What stays the same throughout a run. -/
structure Plan where
  settings : Settings
  /-- The comment styles of the context, used where the settings have none. -/
  fallback : Option Styles
  loader : Loader

namespace Plan

/-- The comment styles by which comments are found. -/
def scanStyles (plan : Plan) : Option Styles :=
  plan.settings.styles.or plan.fallback

/-- How the sources of a run are scanned. -/
def dialect (plan : Plan) : Dialect :=
  ⟨plan.settings.trigger, plan.scanStyles.getD []⟩

/-- The content of a path. A failure that has no location is put at that of the request. -/
def read (plan : Plan) (path : String) (location : Position) : Except Fault Text :=
  match plan.loader.read path with
  | .ok content => .ok content
  | .error (.unreadable text place failed) =>
    .error (.problem ⟨.load, text, some (place.getD location), failed⟩)
  | .error (.unusable text) => .error (.unusablePath text)

/-- A path can be read exactly if the loader has a content for it. -/
lemma read_eq_ok_iff {plan : Plan} {path : String} {location : Position} {content : Text} :
    plan.read path location = .ok content ↔ plan.loader.read path = .ok content := by
  unfold read
  cases plan.loader.read path with
  | ok other => simp
  | error failure => cases failure <;> simp

/-- The identity and the content of a path. A path without an identity is not read. -/
def find (plan : Plan) (path : String) (location : Position) : Except Fault (String × Text) :=
  match plan.loader.canonical path with
  | .error text => .error (.unusablePath text)
  | .ok identity => (plan.read path location).map (identity, ·)

section Find

variable {plan : Plan} {path : String} {location : Position}

/-- A file is found exactly if it has an identity and a content. -/
lemma find_eq_ok_iff {identity : String} {content : Text} :
    plan.find path location = .ok (identity, content) ↔
      plan.loader.canonical path = .ok identity ∧ plan.loader.read path = .ok content := by
  rw [← @read_eq_ok_iff plan path location content]
  unfold find
  cases plan.loader.canonical path with
  | error text => simp
  | ok other => cases plan.read path location <;> simp [Except.map]

/-- A file is not found if it has no identity, or cannot be read. -/
lemma find_eq_error {fault : Fault} (h : plan.find path location = .error fault) :
    (∃ text, plan.loader.canonical path = .error text ∧ fault = .unusablePath text) ∨
      ∃ identity, plan.loader.canonical path = .ok identity ∧
        plan.read path location = .error fault := by
  unfold find at h
  split at h
  · rename_i text hidentity
    cases h
    exact Or.inl ⟨text, hidentity, rfl⟩
  · rename_i identity hidentity
    cases hread : plan.read path location with
    | ok content =>
      rw [hread] at h
      cases h
    | error other =>
      rw [hread] at h
      cases h
      exact Or.inr ⟨identity, hidentity, rfl⟩

end Find

/-- The leaf of plain text, which takes comment styles to be told from comments. -/
def textLeaf (plan : Plan) (location : Position) (content : Text) : Except Fault Node :=
  match plan.scanStyles with
  | none => .error .noStyles
  | some _ => .ok (.text location content)

/-- The leaf of a kept comment, with the style of the settings by which it is one. -/
def commentLeaf (plan : Plan) (location : Position) (content : Text) : Except Fault Node :=
  match plan.settings.styles with
  | none => .error .noStyles
  | some styles => .ok (.comment location content (styles.first? content))

/-- The children that one item of a file stands for: a leaf, or what `answer` gives for a
request. -/
def step (plan : Plan) (answer : Request → Ledger → Expansion (Option Node)) :
    Item → Ledger → Expansion (List Node)
  | .text location content, ledger => (ledger, (plan.textLeaf location content).map ([·]))
  | .comment location content, ledger => (ledger, (plan.commentLeaf location content).map ([·]))
  | .request request, ledger =>
    let (ledger, result) := answer request ledger
    (ledger, result.map Option.toList)
  | .failure diagnostic, ledger => (ledger, .error (.problem diagnostic))

section Step

variable {plan : Plan} {answer : Request → Ledger → Expansion (Option Node)}
  {ledger after : Ledger} {nodes : List Node}

/-- Text that is kept is one leaf. -/
lemma step_text_eq_ok {location : Position} {content : Text}
    (h : plan.step answer (.text location content) ledger = (after, .ok nodes)) :
    after = ledger ∧ nodes = [.text location content] := by
  cases hstyles : plan.scanStyles with
  | none => simp [step, textLeaf, hstyles, Except.map] at h
  | some styles =>
    simp only [step, textLeaf, hstyles, Except.map, Prod.mk.injEq, Except.ok.injEq] at h
    exact ⟨h.1.symm, h.2.symm⟩

/-- A comment that is kept is one leaf, with the style of the settings by which it is one. -/
lemma step_comment_eq_ok {location : Position} {content : Text}
    (h : plan.step answer (.comment location content) ledger = (after, .ok nodes)) :
    after = ledger ∧ ∃ styles, plan.settings.styles = some styles ∧
      nodes = [.comment location content (styles.first? content)] := by
  cases hstyles : plan.settings.styles with
  | none => simp [step, commentLeaf, hstyles, Except.map] at h
  | some styles =>
    simp only [step, commentLeaf, hstyles, Except.map, Prod.mk.injEq, Except.ok.injEq] at h
    exact ⟨h.1.symm, styles, rfl, h.2.symm⟩

/-- A request stands for the node that it is answered by, if there is one. -/
lemma step_request (request : Request) :
    plan.step answer (.request request) ledger =
      Expansion.map Option.toList (answer request ledger) :=
  rfl

/-- A request that is answered brings the node of its file, or nothing. -/
lemma step_request_eq_ok {request : Request}
    (h : plan.step answer (.request request) ledger = (after, .ok nodes)) :
    ∃ node?, answer request ledger = (after, .ok node?) ∧ nodes = node?.toList := by
  rw [step_request] at h
  rcases hanswer : answer request ledger with ⟨final, fault | node?⟩
  · rw [hanswer] at h
    cases h
  · rw [hanswer] at h
    cases h
    exact ⟨node?, rfl, rfl⟩

end Step

/-- The children that the items of a file stand for, in order. The first item that fails decides. -/
def collect (plan : Plan) (answer : Request → Ledger → Expansion (Option Node)) :
    List Item → Ledger → Expansion (List Node)
  | [], ledger => (ledger, .ok [])
  | item :: items, ledger =>
    match plan.step answer item ledger with
    | (ledger, .error fault) => (ledger, .error fault)
    | (ledger, .ok nodes) =>
      let (ledger, result) := plan.collect answer items ledger
      (ledger, result.map (nodes ++ ·))

section Collect

variable {plan : Plan} {answer : Request → Ledger → Expansion (Option Node)} {item : Item}
  {ledger after : Ledger}

/-- An item that fails ends the collection. -/
lemma collect_cons_error {fault : Fault} (items : List Item)
    (h : plan.step answer item ledger = (after, .error fault)) :
    plan.collect answer (item :: items) ledger = (after, .error fault) := by
  rw [collect, h]

/-- The children of an item that does not fail go before those of the other items. -/
lemma collect_cons_ok {nodes : List Node} (items : List Item)
    (h : plan.step answer item ledger = (after, .ok nodes)) :
    plan.collect answer (item :: items) ledger =
      Expansion.map (nodes ++ ·) (plan.collect answer items after) := by
  rw [collect, h]
  rfl

/-- A collection that succeeds has an item that does not fail first, and then the other items. -/
lemma collect_cons_eq_ok {items : List Item} {nodes : List Node}
    (h : plan.collect answer (item :: items) ledger = (after, .ok nodes)) :
    ∃ between first rest, plan.step answer item ledger = (between, .ok first) ∧
      plan.collect answer items between = (after, .ok rest) ∧ nodes = first ++ rest := by
  rcases hstep : plan.step answer item ledger with ⟨between, fault | first⟩
  · rw [collect_cons_error items hstep] at h
    simp at h
  · rw [collect_cons_ok items hstep] at h
    rcases hrest : plan.collect answer items between with ⟨final, fault | rest⟩
    · rw [hrest] at h
      cases h
    · rw [hrest] at h
      cases h
      exact ⟨between, first, rest, rfl, hrest, rfl⟩

end Collect

/-- Finds the file of a request in the file named `name`, and expands it by `nested`, unless the
request is skipped. -/
def fetch (plan : Plan) (nested : String → String → Text → Ledger → Expansion Node)
    (name : String) (request : Request) (ledger : Ledger) : Expansion (Option Node) :=
  let target := Path.relativeTo name request.target
  if request.once = true ∧ ledger.HasMet plan.loader target then
    ((ledger.identify plan.loader target).note (.skipping request.location target), .ok none)
  else
    let ledger := ledger.enroll plan.loader request.once target
    match plan.find target request.location with
    | .error fault => (ledger, .error fault)
    | .ok (identity, source) =>
      let (ledger, result) := nested target identity source ledger
      (ledger, result.map some)

section Fetch

variable {plan : Plan} {nested : String → String → Text → Ledger → Expansion Node} {name : String}
  {request : Request} {ledger : Ledger}

/-- A request for one time only is skipped for a file that was met. -/
lemma fetch_of_met (honce : request.once = true)
    (hmet : ledger.HasMet plan.loader (Path.relativeTo name request.target)) :
    plan.fetch nested name request ledger =
      ((ledger.identify plan.loader (Path.relativeTo name request.target)).note
        (.skipping request.location (Path.relativeTo name request.target)), .ok none) := by
  rw [fetch, if_pos ⟨honce, hmet⟩]

/-- A request that is not skipped fails when its file is not found. -/
lemma fetch_of_missing {fault : Fault}
    (hnew : ¬ (request.once = true ∧
      ledger.HasMet plan.loader (Path.relativeTo name request.target)))
    (hfind : plan.find (Path.relativeTo name request.target) request.location = .error fault) :
    plan.fetch nested name request ledger =
      (ledger.enroll plan.loader request.once (Path.relativeTo name request.target),
        .error fault) := by
  simp only [fetch, if_neg hnew, hfind]

/-- A request that is not skipped has its file expanded when it is found. -/
lemma fetch_of_found {identity : String} {source : Text}
    (hnew : ¬ (request.once = true ∧
      ledger.HasMet plan.loader (Path.relativeTo name request.target)))
    (hfind : plan.find (Path.relativeTo name request.target) request.location =
      .ok (identity, source)) :
    plan.fetch nested name request ledger =
      Expansion.map some (nested (Path.relativeTo name request.target) identity source
        (ledger.enroll plan.loader request.once (Path.relativeTo name request.target))) := by
  simp only [fetch, if_neg hnew, hfind]
  rfl

end Fetch

/-- The tree of a source, expanded as a file at the given depth. -/
def expand (plan : Plan) (depth : Int) (name path : String) (location : Position) (source : Text)
    (ledger : Ledger) : Expansion Node :=
  let (ledger, result) :=
    plan.collect
      (fun request ledger =>
        if _h : plan.settings.maxDepth ≤ depth then
          (ledger, .error (.problem (.tooDeep plan.settings.maxDepth request.location)))
        else
          plan.fetch
            (fun target identity source ledger =>
              plan.expand (depth + 1) target identity request.location source ledger)
            name request ledger)
      (plan.dialect.items name source) (ledger.note (.entering name depth))
  (ledger.note (.leaving name), result.map (.file location name path))
termination_by (plan.settings.maxDepth - depth).toNat
decreasing_by omega

/-- Answers a request in the file named `name` at the given depth: it is refused at the greatest
depth, before anything is asked of the loader. -/
def answer (plan : Plan) (depth : Int) (name : String) (request : Request) (ledger : Ledger) :
    Expansion (Option Node) :=
  if plan.settings.maxDepth ≤ depth then
    (ledger, .error (.problem (.tooDeep plan.settings.maxDepth request.location)))
  else
    plan.fetch
      (fun target identity source ledger =>
        plan.expand (depth + 1) target identity request.location source ledger)
      name request ledger

/-- A request that is answered was made above the greatest depth. Either it was for one time only,
and is skipped because the file was met, or the file was read and expanded one level deeper. -/
lemma answer_eq_ok {plan : Plan} {depth : Int} {name : String} {request : Request}
    {ledger after : Ledger} {node? : Option Node}
    (h : plan.answer depth name request ledger = (after, .ok node?)) :
    depth < plan.settings.maxDepth ∧
      (request.once = true ∧
          ledger.HasMet plan.loader (Path.relativeTo name request.target) ∧
          after = (ledger.identify plan.loader (Path.relativeTo name request.target)).note
            (.skipping request.location (Path.relativeTo name request.target)) ∧
          node? = none ∨
        ∃ identity source node, ¬ (request.once = true ∧
            ledger.HasMet plan.loader (Path.relativeTo name request.target)) ∧
          plan.loader.canonical (Path.relativeTo name request.target) = .ok identity ∧
          plan.loader.read (Path.relativeTo name request.target) = .ok source ∧
          plan.expand (depth + 1) (Path.relativeTo name request.target) identity request.location
            source
            (ledger.enroll plan.loader request.once (Path.relativeTo name request.target)) =
              (after, .ok node) ∧
          node? = some node) := by
  unfold answer at h
  split at h
  · cases h
  rename_i hdepth
  refine ⟨by omega, ?_⟩
  by_cases hmet : request.once = true ∧
      ledger.HasMet plan.loader (Path.relativeTo name request.target)
  · rw [fetch_of_met hmet.1 hmet.2] at h
    cases h
    exact Or.inl ⟨hmet.1, hmet.2, rfl, rfl⟩
  · rcases hfind : plan.find (Path.relativeTo name request.target) request.location with
      fault | ⟨identity, source⟩
    · rw [fetch_of_missing hmet hfind] at h
      cases h
    · rw [fetch_of_found hmet hfind] at h
      obtain ⟨hidentity, hread⟩ := find_eq_ok_iff.1 hfind
      rcases hexpand : plan.expand (depth + 1) (Path.relativeTo name request.target) identity
          request.location source
          (ledger.enroll plan.loader request.once (Path.relativeTo name request.target)) with
        ⟨final, fault | node⟩
      · rw [hexpand] at h
        cases h
      · rw [hexpand] at h
        cases h
        exact Or.inr ⟨identity, source, node, hmet, hidentity, hread, hexpand, rfl⟩

/-- A file is expanded by collecting its items, with requests answered at its depth. -/
lemma expand_eq (plan : Plan) (depth : Int) (name path : String) (location : Position)
    (source : Text) (ledger : Ledger) :
    plan.expand depth name path location source ledger =
      (((plan.collect (plan.answer depth name) (plan.dialect.items name source)
            (ledger.note (.entering name depth))).1.note (.leaving name)),
        (plan.collect (plan.answer depth name) (plan.dialect.items name source)
            (ledger.note (.entering name depth))).2.map (.file location name path)) := by
  rw [expand]
  rfl

/-- A file that is expanded has the children that are collected from its items. -/
lemma expand_eq_ok {plan : Plan} {depth : Int} {name path : String} {location : Position}
    {source : Text} {ledger after : Ledger} {root : Node}
    (h : plan.expand depth name path location source ledger = (after, .ok root)) :
    ∃ final children, plan.collect (plan.answer depth name) (plan.dialect.items name source)
        (ledger.note (.entering name depth)) = (final, .ok children) ∧
      after = final.note (.leaving name) ∧ root = .file location name path children := by
  rw [expand_eq] at h
  rcases hcollect : plan.collect (plan.answer depth name) (plan.dialect.items name source)
      (ledger.note (.entering name depth)) with ⟨final, fault | children⟩
  · rw [hcollect] at h
    cases h
  · rw [hcollect] at h
    cases h
    exact ⟨final, children, rfl, rfl, rfl⟩

/-- The tree of the file at a path, expanded as the file of a run. It counts as met from the
start. -/
def expandRoot (plan : Plan) (path : String) (ledger : Ledger) : Expansion Node :=
  let ledger := ledger.enroll plan.loader true path
  match plan.find path (.start path) with
  | .error fault => (ledger, .error fault)
  | .ok (identity, source) => plan.expand 1 path identity (.start path) source ledger

end Plan

end Splice
