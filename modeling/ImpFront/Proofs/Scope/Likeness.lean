/-
  ImpFront.Proofs.Scope.Likeness
  ──────────────────────────────
  **SCOPES THAT ARE ALIKE.**

  A likeness says which tokens of two files stand for each other: they have
  one kind and one text, and names follow each other in the same order in both
  files.  Scopes are alike if they hold the same names, at the same levels,
  with bindings and calls at tokens that are alike.

      alike before  →  alike after, or errors that are alike

  Errors are alike if they have one cause, and blame and mention tokens that
  are alike.  Of a likeness between the tokens of a file and themselves this
  says at least that every error blames a token of the file.
-/
import ImpFront.Proofs.Outcome
import ImpFront.Proofs.Tree.Placeless
import Mathlib.Data.List.Forall2

namespace ImpFront

/-! ## §1. Tokens and errors. -/

/-- Which tokens of two files stand for each other. -/
structure Likeness where
  /-- The tokens are alike. -/
  token : Token → Token → Prop
  /-- They are of one kind. -/
  kind : ∀ {s t}, token s t → s.kind = t.kind
  /-- They have one text. -/
  value : ∀ {s t}, token s t → s.value = t.value
  /-- Names come in the same order. -/
  order : ∀ {s s' t t'}, token s s' → token t t' → s.kind = .identifier → t.kind = .identifier →
    (s.position.offset ≤ t.position.offset ↔ s'.position.offset ≤ t'.position.offset)

namespace Likeness

variable (R : Likeness) {s t : Token}

theorem placeless (h : R.token s t) : s.placeless = t.placeless :=
  Token.placeless_eq_iff.2 ⟨R.kind h, R.value h⟩

theorem describe (h : R.token s t) : s.describe = t.describe := by
  unfold Token.describe
  rw [R.kind h, R.value h]

/-- Two places at which tokens stand that are alike. -/
def LikePlace (position : Position) (length : Nat) (position' : Position) (length' : Nat) :
    Prop :=
  ∃ t t', R.token t t' ∧ position = t.position ∧ length = t.length
    ∧ position' = t'.position ∧ length' = t'.length

/-- Two notes with one text. -/
structure LikeNote (note note' : Note) : Prop where
  /-- The text. -/
  message : note.message = note'.message
  /-- The places. -/
  place : R.LikePlace note.position note.length note'.position note'.length

/-- Two errors with one cause. -/
structure LikeError (e e' : Error) : Prop where
  /-- The cause. -/
  cause : e.cause = e'.cause
  /-- The places. -/
  place : R.LikePlace e.position e.length e'.position e'.length
  /-- The notes, one by one. -/
  notes : List.Forall₂ R.LikeNote e.notes e'.notes

variable {R}

theorem likeNote_on (h : R.token s t) (message : String) :
    R.LikeNote (.on message s) (.on message t) :=
  ⟨rfl, s, t, h, rfl, rfl, rfl, rfl⟩

theorem likeError_blame (h : R.token s t) (cause : Cause) :
    R.LikeError (.blame cause s) (.blame cause t) :=
  ⟨rfl, ⟨s, t, h, rfl, rfl, rfl, rfl⟩, .nil⟩

theorem LikeError.withNote {e e' : Error} {note note' : Note} (h : R.LikeError e e')
    (hn : R.LikeNote note note') : R.LikeError (e.withNote note) (e'.withNote note') :=
  ⟨h.cause, h.place, List.rel_append h.notes (.cons hn .nil)⟩

end Likeness

/-! ## §2. Tables. -/

/-- Either there is a value on neither side, or two values that are alike. -/
theorem cases_of_rel {α : Type} {V : α → α → Prop} {o o' : Option α} (h : Option.Rel V o o') :
    (o = none ∧ o' = none) ∨ ∃ a a', o = some a ∧ o' = some a' ∧ V a a' := by
  cases h with
  | none => exact .inl ⟨rfl, rfl⟩
  | some ha => exact .inr ⟨_, _, rfl, rfl, ha⟩

/-- Two tables with the same names in the same order, and values that are
alike. -/
def Table.Like {α : Type} (V : α → α → Prop) (t t' : Table α) : Prop :=
  List.Forall₂ (fun entry entry' => entry.1 = entry'.1 ∧ V entry.2 entry'.2) t.entries t'.entries

theorem isNone_congr {α : Type} {V : α → α → Prop} {o o' : Option α} (h : Option.Rel V o o') :
    o.isNone = o'.isNone := by
  cases h <;> rfl

theorem isSome_congr {α : Type} {V : α → α → Prop} {o o' : Option α} (h : Option.Rel V o o') :
    o.isSome = o'.isSome := by
  cases h <;> rfl

namespace Table.Like

variable {α : Type} {V : α → α → Prop} {t t' : Table α}

theorem empty : Table.Like V .empty .empty :=
  .nil

theorem names (h : Table.Like V t t') : t.names = t'.names := by
  have same : List.Forall₂ (· = ·) (t.entries.map Prod.fst) (t'.entries.map Prod.fst) :=
    List.rel_map (fun _ _ he => he.1) h
  exact List.forall₂_eq_eq_eq ▸ same

theorem values (h : Table.Like V t t') : List.Forall₂ V t.values t'.values :=
  List.rel_map (fun _ _ he => he.2) h

theorem get? (h : Table.Like V t t') (name : String) :
    Option.Rel V (t.get? name) (t'.get? name) := by
  unfold Table.Like at h
  unfold Table.get?
  generalize t.entries = entries at h
  generalize t'.entries = entries' at h
  induction h with
  | nil => exact .none
  | @cons entry entry' _ _ he _ ih =>
      rw [List.find?_cons, List.find?_cons, ← he.1]
      cases decide (entry.1 = name) with
      | true => exact .some he.2
      | false => exact ih

theorem erase (h : Table.Like V t t') (name : String) :
    Table.Like V (t.erase name) (t'.erase name) := by
  refine List.rel_filter (fun entry entry' he => ?_) h
  dsimp only
  rw [he.1]

theorem map {f f' : α → α} (h : Table.Like V t t') (hf : ∀ a a', V a a' → V (f a) (f' a')) :
    Table.Like V (t.map f) (t'.map f') :=
  List.rel_map (fun _ _ he => ⟨he.1, hf _ _ he.2⟩) h

theorem insert {a a' : α} (h : Table.Like V t t') (name : String) (ha : V a a') :
    Table.Like V (t.insert name a) (t'.insert name a') := by
  have same := h.names
  unfold Table.insert
  by_cases taken : name ∈ t.names
  · rw [dif_pos taken, dif_pos (same ▸ taken)]
    refine List.rel_map (fun entry entry' he => ⟨he.1, ?_⟩) h
    dsimp only
    rw [← he.1]
    split
    · exact ha
    · exact he.2
  · rw [dif_neg taken, dif_neg (same ▸ taken)]
    exact List.rel_append h (.cons ⟨rfl, ha⟩ .nil)

end Table.Like

/-! ## §3. Scopes. -/

namespace Likeness

variable (R : Likeness)

/-- Two bindings that differ in their places alone. -/
structure LikeSymbol (symbol symbol' : Symbol) : Prop where
  /-- The names are alike. -/
  name : R.token symbol.name symbol'.name
  /-- Without places the bindings are the same. -/
  placeless : symbol.placeless = symbol'.placeless

/-- Two waiting calls of one level. -/
structure LikePending (call call' : Pending) : Prop where
  /-- The level. -/
  level : call.level = call'.level
  /-- The calls are alike. -/
  token : R.token call.token call'.token
  /-- What is called is a name. -/
  kind : call.token.kind = .identifier

/-- Two frames of one sort, with names that are alike. -/
inductive LikeFrame : Frame → Frame → Prop
  | function {locals locals' : Table Symbol} (h : Table.Like R.LikeSymbol locals locals') :
      LikeFrame (.function locals) (.function locals')
  | conditional : LikeFrame .conditional .conditional
  | loop : LikeFrame .loop .loop
  | attribute : LikeFrame .attribute .attribute

/-- Two scopes with the same names and frames. -/
structure LikeScopes (s s' : Scopes) : Prop where
  /-- The global bindings. -/
  globals : Table.Like R.LikeSymbol s.globals s'.globals
  /-- The open frames. -/
  frames : List.Forall₂ R.LikeFrame s.frames s'.frames
  /-- The calls that wait. -/
  pending : Table.Like R.LikePending s.pending s'.pending
  /-- The number of open functions. -/
  level : s.level = s'.level

/-- Two acts on scopes both succeed, with scopes that are alike, or both fail. -/
inductive LikeAct {ε : Type} (E : ε → ε → Prop) :
    EStateM.Result ε Scopes Unit → EStateM.Result ε Scopes Unit → Prop
  | ok {s s' : Scopes} (h : R.LikeScopes s s') : LikeAct E (.ok () s) (.ok () s')
  | error {e e' : ε} {s s' : Scopes} (h : E e e') : LikeAct E (.error e s) (.error e' s')

variable {R}

theorem LikeAct.bind {ε : Type} {E : ε → ε → Prop} {x x' : EStateM ε Scopes Unit}
    {f f' : Unit → EStateM ε Scopes Unit} {s s' : Scopes} (hx : R.LikeAct E (x s) (x' s'))
    (hf : ∀ t t', R.LikeScopes t t' → R.LikeAct E (f () t) (f' () t')) :
    R.LikeAct E ((x >>= f) s) ((x' >>= f') s') := by
  rw [bind_apply, bind_apply]
  cases hr : x s with
  | ok a t =>
      cases hr' : x' s' with
      | ok a' t' =>
          rw [hr, hr'] at hx
          cases hx with
          | ok h => exact hf t t' h
      | error e' t' =>
          rw [hr, hr'] at hx
          cases hx
  | error e t =>
      cases hr' : x' s' with
      | ok a' t' =>
          rw [hr, hr'] at hx
          cases hx
      | error e' t' =>
          rw [hr, hr'] at hx
          cases hx with
          | error h => exact .error h

theorem likeScopes_empty : R.LikeScopes .empty .empty :=
  ⟨.empty, .nil, .empty, rfl⟩

theorem likeFrame_fresh (kind : FrameKind) : R.LikeFrame (.fresh kind) (.fresh kind) := by
  cases kind with
  | function => exact .function .empty
  | conditional => exact .conditional
  | loop => exact .loop
  | «attribute» => exact .attribute

namespace LikeFrame

variable {frame frame' : Frame}

theorem kind (h : R.LikeFrame frame frame') : frame.kind = frame'.kind := by
  cases h <;> rfl

theorem get? (h : R.LikeFrame frame frame') (name : String) :
    Option.Rel R.LikeSymbol (frame.get? name) (frame'.get? name) := by
  cases h with
  | function h => exact h.get? name
  | _ => exact .none

end LikeFrame

/-! ### Looking up -/

namespace LikeScopes

variable {s s' : Scopes}

theorem kinds (h : R.LikeScopes s s') : s.frames.map Frame.kind = s'.frames.map Frame.kind := by
  have same : List.Forall₂ (· = ·) (s.frames.map Frame.kind) (s'.frames.map Frame.kind) :=
    List.rel_map (fun _ _ hf => hf.kind) h.frames
  exact List.forall₂_eq_eq_eq ▸ same

theorem inFunction (h : R.LikeScopes s s') : s.inFunction = s'.inFunction := by
  rw [Scopes.inFunction, h.level, Scopes.inFunction]

theorem inConditional (h : R.LikeScopes s s') : s.inConditional = s'.inConditional := by
  have same (s : Scopes) :
      s.inConditional = (s.frames.map Frame.kind).any (· == .conditional) := by
    rw [List.any_map]
    rfl
  rw [same, h.kinds, same]

theorem inAttribute (h : R.LikeScopes s s') : s.inAttribute = s'.inAttribute := by
  have same (s : Scopes) :
      s.inAttribute = (s.frames.map Frame.kind).head?.any (· == .attribute) := by
    rw [List.head?_map, Option.any_map]
    rfl
  rw [same, h.kinds, same]

theorem lookup? (h : R.LikeScopes s s') (name : String) :
    Option.Rel R.LikeSymbol (s.lookup? name) (s'.lookup? name) := by
  have globals := h.globals.get? name
  have frames := h.frames
  unfold Scopes.lookup?
  generalize s.frames = inner at frames
  generalize s'.frames = inner' at frames
  induction frames with
  | nil => simpa using globals
  | @cons frame frame' _ _ hf _ ih =>
      rw [List.findSome?_cons, List.findSome?_cons]
      obtain ⟨hn, hn'⟩ | ⟨found, found', hs, hs', like⟩ := cases_of_rel (hf.get? name)
      · rw [hn, hn']
        exact ih
      · rw [hs, hs']
        exact .some like

theorem pending? (h : R.LikeScopes s s') (name : String) :
    Option.Rel R.LikePending (s.pending? name) (s'.pending? name) :=
  h.pending.get? name

theorem declaredType {t t' : Token} (h : R.LikeScopes s s') (ht : R.token t t') :
    (∃ d d', s.declaredType t = .ok d ∧ s'.declaredType t' = .ok d'
        ∧ d.placeless = d'.placeless)
      ∨ ∃ e e', s.declaredType t = .error e ∧ s'.declaredType t' = .error e'
        ∧ R.LikeError e e' := by
  unfold Scopes.declaredType
  rw [← R.value ht]
  obtain ⟨hn, hn'⟩ | ⟨found, found', hs, hs', like⟩ := cases_of_rel (h.lookup? t.value)
  · rw [hn, hn']
    exact .inr ⟨_, _, rfl, rfl, likeError_blame ht _⟩
  · rw [hs, hs']
    exact .inl ⟨_, _, rfl, rfl, congrArg Symbol.declared like.placeless⟩

theorem visibleFunction? (h : R.LikeScopes s s') (name : String) :
    Option.Rel R.LikeSymbol (s.visibleFunction? name) (s'.visibleFunction? name) := by
  unfold Scopes.visibleFunction?
  obtain ⟨hn, hn'⟩ | ⟨found, found', hs, hs', like⟩ := cases_of_rel (h.lookup? name)
  · rw [hn, hn']
    exact .none
  · rw [hs, hs', Option.filter_some, Option.filter_some,
      ← Symbol.isFunction_congr like.placeless]
    split
    · exact .some like
    · exact .none

/-! ### Frames open and close -/

theorem enter (h : R.LikeScopes s s') (kind : FrameKind) :
    R.LikeAct (· = ·) (Scopes.enter kind s) (Scopes.enter kind s') := by
  unfold Scopes.enter
  rw [← h.inFunction]
  split
  · exact .error rfl
  · refine .ok ⟨h.globals, .cons (likeFrame_fresh kind) h.frames, h.pending, ?_⟩
    dsimp only
    rw [h.level]

theorem exit (h : R.LikeScopes s s') (kind : FrameKind) :
    R.LikeAct (· = ·) (Scopes.exit kind s) (Scopes.exit kind s') := by
  have frames := h.frames
  unfold Scopes.exit
  generalize s.frames = inner at frames
  generalize s'.frames = inner' at frames
  cases frames with
  | nil => exact .error rfl
  | cons hf outer =>
      dsimp only
      rw [← hf.kind, ← h.level]
      split
      · exact .error rfl
      · split
        -- waiting calls are raised to the level outside the function, on both sides
        · refine .ok ⟨h.globals, outer, h.pending.map fun call call' hc => ?_, rfl⟩
          exact ⟨congrArg (min · _) hc.level, hc.token, hc.kind⟩
        · exact .ok ⟨h.globals, outer, h.pending, rfl⟩

/-! ### Calls -/

theorem isNewReference {t t' : Token} (h : R.LikeScopes s s') (ht : R.token t t') :
    s.isNewReference t = s'.isNewReference t' := by
  unfold Scopes.isNewReference
  rw [← R.value ht, isNone_congr (h.lookup? t.value), isNone_congr (h.pending? t.value)]

theorem mark {t t' : Token} (h : R.LikeScopes s s') (ht : R.token t t')
    (name : t.kind = .identifier) : R.LikeScopes (s.mark t) (s'.mark t') := by
  have waiting : R.LikePending ⟨s.level, t⟩ ⟨s'.level, t'⟩ := ⟨h.level, ht, name⟩
  have noted : R.LikeScopes
      { s with pending := s.pending.insert t.value ⟨s.level, t⟩ }
      { s' with pending := s'.pending.insert t.value ⟨s'.level, t'⟩ } :=
    ⟨h.globals, h.frames, h.pending.insert t.value waiting, h.level⟩
  unfold Scopes.mark
  rw [← R.value ht, ← isSome_congr (h.lookup? t.value)]
  split
  · exact h
  · obtain ⟨hn, hn'⟩ | ⟨call, call', hs, hs', like⟩ := cases_of_rel (h.pending? t.value)
    · rw [hn, hn']
      exact noted
    · -- a call that waits already is noted anew only from a level further out
      rw [hs, hs']
      dsimp only
      rw [← like.level, ← h.level]
      rw [← h.level] at noted
      split
      · exact noted
      · exact h

/-! ### Names are bound and released -/

variable {symbol symbol' : Symbol}

theorem settles (h : R.LikeScopes s s') (hs : R.LikeSymbol symbol symbol') :
    s.settles symbol = s'.settles symbol' := by
  unfold Scopes.settles
  rw [← Symbol.isFunction_congr hs.placeless, ← Symbol.key_congr hs.placeless]
  obtain ⟨hn, hn'⟩ | ⟨call, call', hc, hc', like⟩ := cases_of_rel (h.pending? symbol.key)
  · rw [hn, hn']
    rfl
  · rw [hc, hc', Option.any_some, Option.any_some, h.level, like.level]

theorem refuseConditional (h : R.LikeScopes s s') (hs : R.LikeSymbol symbol symbol') :
    R.LikeAct R.LikeError (Scopes.refuseConditional symbol s)
      (Scopes.refuseConditional symbol' s') := by
  unfold Scopes.refuseConditional
  rw [← h.inConditional]
  split
  · exact .error (likeError_blame hs.name _)
  · exact .ok h

theorem settle (h : R.LikeScopes s s') (hs : R.LikeSymbol symbol symbol') :
    R.LikeAct R.LikeError (Scopes.settle symbol s) (Scopes.settle symbol' s') := by
  unfold Scopes.settle
  rw [← Symbol.isFunction_congr hs.placeless, ← Symbol.key_congr hs.placeless]
  obtain ⟨hn, hn'⟩ | ⟨call, call', hc, hc', like⟩ := cases_of_rel (h.pending? symbol.key)
  · rw [hn, hn']
    exact .ok h
  · rw [hc, hc']
    dsimp only
    rw [← h.level, ← like.level]
    split
    · split
      · exact .ok ⟨h.globals, h.frames, h.pending.erase symbol.key, rfl⟩
      · exact .error ((likeError_blame like.token _).withNote (likeNote_on hs.name _))
    · exact .ok h

theorem refuseTaken (h : R.LikeScopes s s') (hs : R.LikeSymbol symbol symbol') :
    R.LikeAct R.LikeError (Scopes.refuseTaken symbol s) (Scopes.refuseTaken symbol' s') := by
  unfold Scopes.refuseTaken
  rw [← Symbol.key_congr hs.placeless]
  obtain ⟨hn, hn'⟩ | ⟨prior, prior', hp, hp', like⟩ := cases_of_rel (h.lookup? symbol.key)
  · rw [hn, hn']
    exact .ok h
  · rw [hp, hp']
    exact .error ((likeError_blame hs.name _).withNote (likeNote_on like.name _))

/-- The innermost frame with names of its own takes the binding, if there is
one. -/
theorem bindInFrames? {frames frames' : List Frame} (h : List.Forall₂ R.LikeFrame frames frames')
    (hs : R.LikeSymbol symbol symbol') :
    Option.Rel (List.Forall₂ R.LikeFrame) (Scopes.bindInFrames? symbol frames)
      (Scopes.bindInFrames? symbol' frames') := by
  induction h with
  | nil => exact .none
  | @cons frame frame' _ _ hf rest ih =>
      cases hf with
      | function locals =>
          unfold Scopes.bindInFrames?
          rw [← Symbol.key_congr hs.placeless]
          exact .some (.cons (.function (locals.insert _ hs)) rest)
      -- other frames have no names and pass the binding on
      | _ =>
          unfold Scopes.bindInFrames?
          obtain ⟨hn, hn'⟩ | ⟨bound, bound', hb, hb', like⟩ := cases_of_rel ih
          · rw [hn, hn']
            exact .none
          · rw [hb, hb']
            exact .some (.cons (by constructor) like)

theorem bind (h : R.LikeScopes s s') (hs : R.LikeSymbol symbol symbol') :
    R.LikeScopes (s.bind symbol) (s'.bind symbol') := by
  unfold Scopes.bind
  obtain ⟨hn, hn'⟩ | ⟨bound, bound', hb, hb', like⟩ := cases_of_rel (bindInFrames? h.frames hs)
  · rw [hn, hn', ← Symbol.key_congr hs.placeless]
    exact ⟨h.globals.insert _ hs, h.frames, h.pending, h.level⟩
  · rw [hb, hb']
    exact ⟨h.globals, like, h.pending, h.level⟩

theorem define (h : R.LikeScopes s s') (hs : R.LikeSymbol symbol symbol') :
    R.LikeAct R.LikeError (Scopes.define symbol s) (Scopes.define symbol' s') := by
  unfold Scopes.define
  refine .bind (h.refuseConditional hs) fun t t' ht => ?_
  refine .bind (ht.settle hs) fun u u' hu => ?_
  refine .bind (hu.refuseTaken hs) fun v v' hv => ?_
  exact .ok (hv.bind hs)

theorem deleteFromFrames? {frames frames' : List Frame}
    (h : List.Forall₂ R.LikeFrame frames frames') (name : String) :
    Option.Rel (fun found found' => List.Forall₂ R.LikeFrame found.2 found'.2)
      (Scopes.deleteFromFrames? name frames) (Scopes.deleteFromFrames? name frames') := by
  induction h with
  | nil => exact .none
  | @cons frame frame' _ _ hf rest ih =>
      cases hf with
      | function locals =>
          unfold Scopes.deleteFromFrames?
          obtain ⟨hn, hn'⟩ | ⟨_, _, hs, hs', -⟩ := cases_of_rel (locals.get? name)
          · -- a function without the name leaves it to the frames around it
            rw [hn, hn']
            obtain ⟨hn, hn'⟩ | ⟨found, found', hs, hs', like⟩ := cases_of_rel ih
            · rw [hn, hn']
              exact .none
            · rw [hs, hs']
              exact .some (.cons (.function locals) like)
          · rw [hs, hs']
            exact .some (.cons (.function (locals.erase name)) rest)
      | _ =>
          unfold Scopes.deleteFromFrames?
          obtain ⟨hn, hn'⟩ | ⟨found, found', hs, hs', like⟩ := cases_of_rel ih
          · rw [hn, hn']
            exact .none
          · rw [hs, hs']
            exact .some (.cons (by constructor) like)

theorem delete (h : R.LikeScopes s s') (name : String) :
    R.LikeScopes (s.delete name).2 (s'.delete name).2 := by
  unfold Scopes.delete
  obtain ⟨hn, hn'⟩ | ⟨found, found', hs, hs', like⟩ :=
    cases_of_rel (deleteFromFrames? h.frames name)
  · rw [hn, hn']
    exact ⟨h.globals.erase name, h.frames, h.pending, h.level⟩
  · rw [hs, hs']
    exact ⟨h.globals, like, h.pending, h.level⟩

/-! ### The end of a file -/

theorem insertInOrder {call call' : Pending} {calls calls' : List Pending}
    (hc : R.LikePending call call') (h : List.Forall₂ R.LikePending calls calls') :
    List.Forall₂ R.LikePending (Scopes.insertInOrder call calls)
      (Scopes.insertInOrder call' calls') := by
  induction h with
  | nil => exact .cons hc .nil
  | @cons other other' _ _ ho rest ih =>
      unfold Scopes.insertInOrder
      -- the one test of a place: names come in the same order in both files
      by_cases before : call.token.position.offset ≤ other.token.position.offset
      · rw [if_pos before, if_pos ((R.order hc.token ho.token hc.kind ho.kind).1 before)]
        exact .cons hc (.cons ho rest)
      · rw [if_neg before, if_neg (before ∘ (R.order hc.token ho.token hc.kind ho.kind).2)]
        exact .cons ho ih

/-- Calls that nothing answers are swept up in the same order. -/
theorem unanswered (h : R.LikeScopes s s') :
    List.Forall₂ R.LikePending s.unanswered s'.unanswered := by
  have calls := h.pending.values
  unfold Scopes.unanswered Table.Traversal.entry
  dsimp only
  generalize s.pending.values = waiting at calls
  generalize s'.pending.values = waiting' at calls
  induction calls with
  | nil => exact .nil
  | cons hc _ ih => exact insertInOrder hc ih

theorem unresolved? (h : R.LikeScopes s s') :
    Option.Rel R.LikeError s.unresolved? s'.unresolved? := by
  have calls := h.unanswered
  unfold Scopes.unresolved?
  generalize s.unanswered = waiting at calls
  generalize s'.unanswered = waiting' at calls
  cases calls with
  | nil => exact .none
  | @cons first first' _ _ hf later =>
      dsimp only
      rw [← R.value hf.token]
      have blamed := likeError_blame hf.token (.notDefined first.token.value)
      refine .some ⟨rfl, blamed.place, List.rel_map (fun call call' hc => ?_) later⟩
      rw [← R.value hc.token]
      exact likeNote_on hc.token _

end LikeScopes

end Likeness

end ImpFront
