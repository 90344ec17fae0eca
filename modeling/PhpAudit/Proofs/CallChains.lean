import PhpAudit.Proofs.ReceiverCalls

/-!
Chains of method calls on the current object. The type of each receiver follows from the links
before it, the foreign links are those whose receiver is unknown or another object, and behind the
first of them nothing is known any more.
-/

namespace PhpAudit

/-- A call in a chain, behind `->` or `?->`. -/
structure Link where
  span : Span
  nullsafe : Bool
  method : String
  arguments : List (Argument Expr)

def Expr.isMethodCall : Expr → Bool
  | methodCall _ _ _ _ | nullsafeMethodCall _ _ _ _ | staticMethodCall _ _ _ _ => true
  | _ => false

namespace Link

def call (object : Expr) (link : Link) : Expr :=
  if link.nullsafe then .nullsafeMethodCall link.span object link.method link.arguments
  else .methodCall link.span object link.method link.arguments

/-- No method is called in the arguments. -/
def CallFree (link : Link) : Prop :=
  ∀ argument ∈ link.arguments, ∀ inner ∈ argument.value.walk, inner.isMethodCall = false

def reported (link : Link) (receiver : Option String) : ForeignCall :=
  ⟨link.method, receiver, link.span⟩

end Link

namespace Expr

def chain (start : Expr) (links : List Link) : Expr := links.foldl Link.call start

/-- A chain of calls on the current object. -/
def thisChain (place : Span) (links : List Link) : Expr := (var place "$this").chain links

end Expr

namespace Scope

/-- The types of the receivers of the links, with that of the whole chain at the end. A method of
the enclosing declaration gives its result type; nothing is known of a method of the parent or of
another object. -/
def receivers (scope : Scope) : Option String → List Link → List (Option String)
  | receiver, [] => [receiver]
  | receiver, link :: rest =>
      receiver :: receivers scope
        (receiver.bind fun type =>
          if scope.owns type && type != "parent" then Entries.find? scope.methods link.method
          else none) rest

/-- The links whose receiver is unknown or another object, each with the type of its receiver. -/
def foreignLinks (scope : Scope) (receiver : Option String) (links : List Link) :
    List ForeignCall :=
  ((links.zip (scope.receivers receiver links)).filter fun entry => scope.isForeign entry.2).map
    fun entry => entry.1.reported entry.2

/-- The last link of a chain gives one of some words, or the enclosing declaration by its name,
which may be qualified. -/
def Returns (scope : Scope) (words : List String) (types : VariableTypes) (place : Span)
    (links : List Link) : Prop :=
  ∃ type, scope.typeOf types (Expr.thisChain place links) = some type ∧
    (type ∈ words ∨ scope.current = some (lastSegment type))

/-- The type behind some links, from that of the receiver of the first of them. -/
def afterLinks (scope : Scope) (receiver : Option String) (links : List Link) : Option String :=
  links.foldl (fun receiver link => scope.resultType receiver link.method) receiver

variable (scope : Scope)

theorem owns_iff {type : String} : scope.owns type = true ↔
    type ∈ ["self", "static", "parent"] ∨ scope.current = some (lastSegment type) := by
  simp [owns, isReflexive, or_assoc]

theorem isForeign_eq_false_iff {receiver : Option String} :
    scope.isForeign receiver = false ↔ ∃ type, receiver = some type ∧
      (type ∈ ["self", "static", "parent"] ∨ scope.current = some (lastSegment type)) := by
  cases receiver with
  | none => simp [isForeign]
  | some type =>
      rw [isForeign, Bool.not_eq_false', owns_iff]
      simp

/-! The links of a chain -/

theorem receivers_cons (receiver : Option String) (link : Link) (rest : List Link) :
    scope.receivers receiver (link :: rest) =
      receiver :: scope.receivers (scope.resultType receiver link.method) rest := by
  cases receiver <;> rfl

theorem getLast?_receivers (receiver : Option String) (links : List Link) :
    (scope.receivers receiver links).getLast? = some (scope.afterLinks receiver links) := by
  induction links generalizing receiver with
  | nil => rfl
  | cons link rest ih =>
      rw [receivers_cons, List.getLast?_cons, ih]
      rfl

theorem foreignLinks_cons (receiver : Option String) (link : Link) (rest : List Link) :
    scope.foreignLinks receiver (link :: rest) =
      scope.report receiver link.method link.span ++
        scope.foreignLinks (scope.resultType receiver link.method) rest := by
  cases foreign : scope.isForeign receiver <;>
    simp [foreignLinks, receivers_cons, report, foreign, Link.reported]

theorem foreignLinks_append (receiver : Option String) (first second : List Link) :
    scope.foreignLinks receiver (first ++ second) =
      scope.foreignLinks receiver first ++
        scope.foreignLinks (scope.afterLinks receiver first) second := by
  induction first generalizing receiver with
  | nil => rfl
  | cons link rest ih =>
      rw [List.cons_append, foreignLinks_cons, foreignLinks_cons, ih, List.append_assoc]
      rfl

theorem resultType_of_isForeign {receiver : Option String}
    (foreign : scope.isForeign receiver = true) (method : String) :
    scope.resultType receiver method = none := by
  cases receiver with
  | none => rfl
  | some type =>
      have other : scope.owns type = false := by simpa [isForeign] using foreign
      simp [resultType, other]

/-- Behind a foreign link nothing is known. -/
theorem foreignLinks_of_isForeign {receiver : Option String}
    (foreign : scope.isForeign receiver = true) (link : Link) (rest : List Link) :
    scope.foreignLinks receiver (link :: rest) =
      link.reported receiver :: rest.map fun later => later.reported none := by
  have unknown : ∀ links : List Link,
      scope.foreignLinks none links = links.map fun later => later.reported none := by
    intro links
    induction links with
    | nil => rfl
    | cons link rest ih =>
        rw [foreignLinks_cons, resultType, ih]
        rfl
  rw [foreignLinks_cons, scope.resultType_of_isForeign foreign, unknown, report, foreign]
  rfl

/-- Up to the first link with an unknown or foreign result no link is foreign. -/
theorem foreignLinks_of_own {receiver : Option String} {before : List Link}
    (own : ∀ part, part <+: before → scope.isForeign (scope.afterLinks receiver part) = false)
    (last : Link) : scope.foreignLinks receiver (before ++ [last]) = [] := by
  have first : scope.isForeign receiver = false := own [] List.nil_prefix
  induction before generalizing receiver with
  | nil =>
      rw [List.nil_append, foreignLinks_cons, report, first]
      rfl
  | cons link rest ih =>
      have later : ∀ part, part <+: rest → scope.isForeign
          (scope.afterLinks (scope.resultType receiver link.method) part) = false := by
        intro part inside
        exact own (link :: part) (List.cons_prefix_cons.mpr ⟨rfl, inside⟩)
      rw [List.cons_append, foreignLinks_cons, report, first, ih later (later [] List.nil_prefix)]
      rfl

/-! The chain as an expression -/

theorem typeOf_call (types : VariableTypes) (object : Expr) (link : Link) :
    scope.typeOf types (link.call object) =
      scope.resultType (scope.typeOf types object) link.method := by
  cases nullsafe : link.nullsafe <;> simp [Link.call, nullsafe, typeOf]

theorem typeOf_chain (types : VariableTypes) (start : Expr) (links : List Link) :
    scope.typeOf types (start.chain links) =
      scope.afterLinks (scope.typeOf types start) links := by
  induction links generalizing start with
  | nil => rfl
  | cons link rest ih =>
      have others := ih (link.call start)
      rw [typeOf_call] at others
      exact others

theorem calls_eq_nil {types : VariableTypes} {expression : Expr}
    (quiet : ∀ inner ∈ expression.walk, inner.isMethodCall = false) :
    scope.calls types expression = [] := by
  have silent : expression.walk.filterMap (scope.foreignCallAt types) = [] := by
    rw [List.filterMap_eq_nil_iff]
    intro inner member
    have other := quiet inner member
    cases inner with
    | methodCall _ _ _ _ | nullsafeMethodCall _ _ _ _ | staticMethodCall _ _ _ _ => cases other
    | _ => rfl
  exact (silent ▸ scope.calls_perm_walk types expression).eq_nil

theorem calls_call (types : VariableTypes) (object : Expr) {link : Link} (quiet : link.CallFree) :
    scope.calls types (link.call object) = scope.calls types object ++
      scope.report (scope.typeOf types object) link.method link.span := by
  have silent : scope.callsInArguments types link.arguments = [] := by
    rw [callsInArguments_eq_flatMap, List.flatMap_eq_nil_iff]
    intro value member
    obtain ⟨argument, present, rfl⟩ := List.mem_map.mp member
    exact scope.calls_eq_nil (quiet argument present)
  cases nullsafe : link.nullsafe <;> simp [Link.call, nullsafe, calls, silent]

theorem calls_chain (types : VariableTypes) (start : Expr) {links : List Link}
    (quiet : ∀ link ∈ links, link.CallFree) :
    scope.calls types (start.chain links) =
      scope.calls types start ++ scope.foreignLinks (scope.typeOf types start) links := by
  induction links generalizing start with
  | nil => simp [Expr.chain, foreignLinks]
  | cons link rest ih =>
      have others := ih (link.call start) fun later member =>
        quiet later (List.mem_cons_of_mem _ member)
      rw [calls_call scope types start (quiet link List.mem_cons_self), typeOf_call] at others
      rw [foreignLinks_cons, ← List.append_assoc, ← others]
      rfl

end Scope

namespace Tracker

/-- Looking for foreign calls in a chain on the current object adds the links whose receiver is
unknown or another object, in their order and with the types of their receivers, and the chain has
the type behind its last link. So the first link that gives none of `self`, `static`, `parent` and
the enclosing declaration makes the next one foreign, and all links behind that one are reported
with an unknown receiver. -/
theorem resolve_thisChain (scope : Scope) (tracker : Tracker) (place : Span) (links : List Link)
    (quiet : ∀ link ∈ links, link.CallFree) :
    (tracker.resolve scope (Expr.thisChain place links)).found =
        tracker.found ++ scope.foreignLinks (some "self") links ∧
      (scope.receivers (some "self") links).getLast? =
        some (scope.typeOf tracker.types (Expr.thisChain place links)) ∧
      ∀ before broken next after, links = before ++ broken :: next :: after →
        (∀ part, part <+: before →
          scope.Returns ["self", "static", "parent"] tracker.types place part) →
        ¬scope.Returns ["self", "static", "parent"] tracker.types place (before ++ [broken]) →
        (tracker.resolve scope (Expr.thisChain place links)).found =
          tracker.found ++
            next.reported
              (scope.typeOf tracker.types (Expr.thisChain place (before ++ [broken]))) ::
            after.map fun later => later.reported none := by
  have found : (tracker.resolve scope (Expr.thisChain place links)).found =
      tracker.found ++ scope.foreignLinks (some "self") links :=
    congrArg (tracker.found ++ ·) (scope.calls_chain tracker.types (.var place "$this") quiet)
  have typed : ∀ part, scope.typeOf tracker.types (Expr.thisChain place part) =
      scope.afterLinks (some "self") part := scope.typeOf_chain tracker.types (.var place "$this")
  refine ⟨found, ?_, ?_⟩
  · rw [scope.getLast?_receivers, typed]
  · rintro before broken next after rfl own apart
    simp only [Scope.Returns, typed, ← Scope.isForeign_eq_false_iff] at own apart
    have split : before ++ broken :: next :: after = (before ++ [broken]) ++ next :: after := by
      simp
    rw [found, typed, split, scope.foreignLinks_append, scope.foreignLinks_of_own own,
      scope.foreignLinks_of_isForeign (by simpa using apart)]
    rfl

end Tracker

section Programs

/-- A call without arguments. -/
def Link.plain (nullsafe : Bool) (method : String) : Link := ⟨{}, nullsafe, method, []⟩

theorem Link.callFree_plain (nullsafe : Bool) (method : String) :
    (plain nullsafe method).CallFree := by
  intro argument member
  cases member

/-- A class `A` with fluent methods `me` and `twin`, and `other`, which gives another object. -/
def fluentScope : Scope := ⟨some "A", [("me", "static"), ("twin", "N\\A"), ("other", "Other")]⟩

/-- The links of `$this->me()?->twin()`. -/
def fluentStart : List Link := [.plain false "me", .plain true "twin"]

/-- The link of `->fetch($y)`. -/
def fetchLink : Link := ⟨{}, false, "fetch", [⟨{}, .var {} "$y", none, false⟩]⟩

/-- The links of `->other()->fetch($y)->name()`. -/
def foreignEnd : List Link := [.plain false "other", fetchLink, .plain false "name"]

theorem Tracker.resolve_thisChain_other :
    (∀ link ∈ fluentStart ++ foreignEnd, link.CallFree) ∧
      (∀ part, part <+: fluentStart →
        fluentScope.Returns ["self", "static", "parent"] [] {} part) ∧
      ¬fluentScope.Returns ["self", "static", "parent"] [] {}
        (fluentStart ++ [.plain false "other"]) ∧
      (({} : Tracker).resolve fluentScope (Expr.thisChain {} (fluentStart ++ foreignEnd))).found =
        [⟨"fetch", some "Other", {}⟩, ⟨"name", none, {}⟩] := by
  have quiet : ∀ link ∈ fluentStart ++ foreignEnd, link.CallFree := by
    have fetch : fetchLink.CallFree := by
      intro argument member inner inside
      rw [List.mem_singleton.mp member, Expr.walk_eq] at inside
      rw [List.mem_singleton.mp inside]
      rfl
    simp [fluentStart, foreignEnd, Link.callFree_plain, fetch]
  have own : ∀ part, part <+: fluentStart →
      fluentScope.Returns ["self", "static", "parent"] [] {} part := by
    intro part inside
    simp only [fluentStart, List.prefix_cons_iff, List.prefix_nil] at inside
    rcases inside with rfl | ⟨_, rfl, rfl | ⟨_, rfl, rfl⟩⟩
    · exact ⟨"self", rfl, by simp⟩
    · exact ⟨"static", rfl, by simp⟩
    · exact ⟨"N\\A", rfl, .inr rfl⟩
  have apart : ¬fluentScope.Returns ["self", "static", "parent"] [] {}
      (fluentStart ++ [.plain false "other"]) := by
    rintro ⟨type, given, known⟩
    obtain rfl : "Other" = type := Option.some.inj given
    revert known
    decide
  exact ⟨quiet, own, apart,
    (Tracker.resolve_thisChain fluentScope {} {} _ quiet).2.2 _ _ _ _ rfl own apart⟩

/-- A class `A` with a method that gives its parent. -/
def parentScope : Scope := ⟨some "A", [("boot", "parent")]⟩

/-- A link that gives the parent does not make the next one foreign. -/
theorem Tracker.resolve_thisChain_parent :
    ¬∀ before broken next after,
      [Link.plain false "boot", .plain false "next"] = before ++ broken :: next :: after →
      (∀ part, part <+: before → parentScope.Returns ["self", "static"] [] {} part) →
      ¬parentScope.Returns ["self", "static"] [] {} (before ++ [broken]) →
      next.reported (parentScope.typeOf [] (Expr.thisChain {} (before ++ [broken]))) ∈
        (({} : Tracker).resolve parentScope
          (Expr.thisChain {} [.plain false "boot", .plain false "next"])).found := by
  intro breaks
  have own : ∀ part, part <+: [] → parentScope.Returns ["self", "static"] [] {} part := by
    intro part inside
    rw [List.prefix_nil.mp inside]
    exact ⟨"self", rfl, by simp⟩
  have apart : ¬parentScope.Returns ["self", "static"] [] {} ([] ++ [.plain false "boot"]) := by
    rintro ⟨type, given, known⟩
    obtain rfl : "parent" = type := Option.some.inj given
    revert known
    decide
  have silent : (({} : Tracker).resolve parentScope
      (Expr.thisChain {} [.plain false "boot", .plain false "next"])).found = [] := rfl
  have reported := breaks [] (.plain false "boot") (.plain false "next") [] rfl own apart
  rw [silent] at reported
  cases reported

end Programs

end PhpAudit
