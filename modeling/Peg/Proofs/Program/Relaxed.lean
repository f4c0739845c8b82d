/-
Peg/Proofs/Program/Relaxed.lean

Options that ask for less.

Three options make the compiler refuse grammars: it may read mappers, it may
have to know the functions of the host, and it may look for left recursion.
Options relax others (`options'.Relaxes options`) when they ask for no more
than these.  Then what compiles still compiles, to the same program, but for
the mappers if they are not read any more (`Program.under`).

The resolver looks at one of the three options in one place, a function that
is not registered, so the patterns resolve to the same matchers by induction
on patterns.  The check for left recursion looks at the items only, which a
program without its mappers keeps.

A grammar without variables and functions of the host resolves to matchers
that look at no values.  Its rules match alike under all these options.
-/
import Peg.Proofs.Program.Correct
import Peg.Proofs.Program.Same
import Peg.Proofs.Program.WithoutMappers

namespace Peg

/-! ### Options -/

/-- Options that ask for no more than others, and are the same apart from that. -/
structure CompileOptions.Relaxes (options' options : CompileOptions) : Prop where
  templateWhitespace : options'.templateWhitespace = options.templateWhitespace
  transformers : options'.transformers = options.transformers
  dialect : options'.dialect = options.dialect
  interpretMappers : options'.interpretMappers = true → options.interpretMappers = true
  hostTransformers : options.hostTransformers = true → options'.hostTransformers = true
  rejectLeftRecursion : options'.rejectLeftRecursion = true → options.rejectLeftRecursion = true

/-- Parsers are generated from whatever the default options accept. -/
theorem CompileOptions.forCodegen_relaxes : CompileOptions.forCodegen.Relaxes {} :=
  ⟨rfl, rfl, rfl, nofun, nofun, fun h => h⟩

/-- What options leave of a program: its mappers may not be read. -/
def Program.under (program : Program) (options : CompileOptions) : Program :=
  if options.interpretMappers then program else program.withoutMappers

/-! ### Resolving -/

namespace Resolver

variable {grammar : Grammar} {options options' : CompileOptions} {param : Option String}

/-- A function that is known stays known, and is the same. -/
theorem resolveTransformer_of_relaxes (h : options'.Relaxes options) {name : String} {span : Span}
    {transformer : Option Transformer}
    (hresolved : resolveTransformer ⟨grammar, options⟩ name span = .ok transformer) :
    resolveTransformer ⟨grammar, options'⟩ name span = .ok transformer := by
  simp only [resolveTransformer, h.transformers] at hresolved ⊢
  rcases hlookup : options.transformers.lookup name with - | registered
  · simp only [hlookup] at hresolved ⊢
    split at hresolved
    · rename_i hhost
      rw [if_pos (h.hostTransformers hhost)]
      exact hresolved
    · cases hresolved
  · simp only [hlookup] at hresolved ⊢
    exact hresolved

mutual

theorem resolvePattern_of_relaxes (h : options'.Relaxes options) {bound : List Nat} :
    ∀ {pattern : Pattern} {matcher : Matcher},
      resolvePattern ⟨grammar, options⟩ param bound pattern = .ok matcher →
      resolvePattern ⟨grammar, options'⟩ param bound pattern = .ok matcher
  | .literal _ _, _, hresolved | .any _, _, hresolved | .name _ _, _, hresolved
  | .variable _ _, _, hresolved | .template _ _ _, _, hresolved => hresolved
  | .regex source flags span, _, hresolved => by
    rw [resolvePattern, h.dialect]
    exact hresolved
  | .apply function inner span, matcher, hresolved => by
    rw [resolvePattern] at hresolved ⊢
    rcases hmake : builtin? function with - | make
    · simp only [hmake] at hresolved ⊢
      rcases htemplate : grammar.template? (some function) with - | id
      · simp only [htemplate] at hresolved ⊢
        split at hresolved
        · cases hresolved
        · rename_i hsimple
          obtain ⟨transformer, htransformer, hresolved⟩ := bind_eq_ok_iff.1 hresolved
          obtain ⟨body, hbody, hresolved⟩ := bind_eq_ok_iff.1 hresolved
          rw [if_neg hsimple]
          refine bind_eq_ok_iff.2 ⟨transformer, resolveTransformer_of_relaxes h htransformer, ?_⟩
          exact bind_eq_ok_iff.2 ⟨body, resolvePattern_of_relaxes h hbody, hresolved⟩
      · simp only [htemplate] at hresolved ⊢
        exact hresolved
    · simp only [hmake] at hresolved ⊢
      obtain ⟨body, hbody, hresolved⟩ := bind_eq_ok_iff.1 hresolved
      exact bind_eq_ok_iff.2 ⟨body, resolvePattern_of_relaxes h hbody, hresolved⟩
  | .group items span, _, hresolved => by
    rw [resolvePattern] at hresolved ⊢
    obtain ⟨matchers, hmatchers, hresolved⟩ := bind_eq_ok_iff.1 hresolved
    exact bind_eq_ok_iff.2 ⟨matchers, resolveGroupItems_of_relaxes h hmatchers, hresolved⟩

theorem resolveGroupItem_of_relaxes (h : options'.Relaxes options) {bound : List Nat} :
    ∀ {item : GroupItem} {matcher : Matcher},
      resolveGroupItem ⟨grammar, options⟩ param bound item = .ok matcher →
      resolveGroupItem ⟨grammar, options'⟩ param bound item = .ok matcher
  | .mk _ _ _ _, _, hresolved => by
    rw [resolveGroupItem] at hresolved ⊢
    obtain ⟨body, hbody, hresolved⟩ := bind_eq_ok_iff.1 hresolved
    exact bind_eq_ok_iff.2 ⟨body, resolvePattern_of_relaxes h hbody, hresolved⟩

theorem resolveGroupItems_of_relaxes (h : options'.Relaxes options) {outer : List Nat} :
    ∀ {items : List GroupItem} {index : Nat} {matchers : List Matcher},
      resolveGroupItems ⟨grammar, options⟩ param outer index items = .ok matchers →
      resolveGroupItems ⟨grammar, options'⟩ param outer index items = .ok matchers
  | [], _, _, hresolved => hresolved
  | _ :: _, _, _, hresolved => by
    rw [resolveGroupItems] at hresolved ⊢
    obtain ⟨matcher, hmatcher, hresolved⟩ := bind_eq_ok_iff.1 hresolved
    obtain ⟨matchers, hmatchers, hresolved⟩ := bind_eq_ok_iff.1 hresolved
    refine bind_eq_ok_iff.2 ⟨matcher, resolveGroupItem_of_relaxes h hmatcher, ?_⟩
    exact bind_eq_ok_iff.2 ⟨matchers, resolveGroupItems_of_relaxes h hmatchers, hresolved⟩

end

/-- Mappers that are not read any more are left out. -/
theorem resolveAlternative_of_relaxes (h : options'.Relaxes options) {alternative : Alternative}
    {compiled : CompiledAlternative}
    (hresolved : resolveAlternative ⟨grammar, options⟩ param alternative = .ok compiled) :
    resolveAlternative ⟨grammar, options'⟩ param alternative =
      .ok (if options'.interpretMappers then compiled else compiled.withoutMapper) := by
  rw [resolveAlternative] at hresolved ⊢
  obtain ⟨items, hitems, hresolved⟩ := bind_eq_ok_iff.1 hresolved
  refine bind_eq_ok_iff.2 ⟨items, resolveGroupItems_of_relaxes h hitems, ?_⟩
  rcases hmapper : alternative.mapper with - | mapper
  · simp only [hmapper] at hresolved ⊢
    cases hresolved
    split
    · rfl
    · rfl
  · simp only [hmapper] at hresolved ⊢
    by_cases hinterpret : options'.interpretMappers = true
    · rw [if_pos (h.interpretMappers hinterpret)] at hresolved
      rw [if_pos hinterpret, if_pos hinterpret]
      exact hresolved
    · rw [if_neg hinterpret, if_neg hinterpret]
      split at hresolved
      · obtain ⟨expr, -, hresolved⟩ := bind_eq_ok_iff.1 hresolved
        cases hresolved
        rfl
      · cases hresolved
        rfl

theorem resolveRule_of_relaxes (h : options'.Relaxes options) {rule : Rule}
    {compiled : CompiledRule} (hresolved : resolveRule ⟨grammar, options⟩ rule = .ok compiled) :
    resolveRule ⟨grammar, options'⟩ rule =
      .ok (if options'.interpretMappers then compiled else compiled.withoutMappers) := by
  obtain ⟨alternatives, halternatives, rfl⟩ := resolveRule_eq_ok_iff.1 hresolved
  have hrelaxed : List.Forall₂ (fun alternative compiled =>
      resolveAlternative ⟨grammar, options'⟩ rule.head.param? alternative = .ok compiled)
      rule.alternatives (alternatives.map fun compiled =>
        if options'.interpretMappers then compiled else compiled.withoutMapper) := by
    rw [List.forall₂_map_right_iff]
    exact halternatives.imp fun _ _ => resolveAlternative_of_relaxes h
  refine resolveRule_eq_ok_iff.2 ⟨_, hrelaxed, ?_⟩
  simp only [h.templateWhitespace]
  split
  · rw [List.map_id']
  · rfl

end Resolver

/-! ### Compiling -/

namespace Grammar

variable {grammar : Grammar} {options options' : CompileOptions} {program : Program}

theorem resolvesTo_of_relaxes (h : options'.Relaxes options)
    (hresolves : grammar.ResolvesTo options program) :
    grammar.ResolvesTo options' (program.under options') := by
  have hrules : (program.under options').rules = program.rules.map fun compiled =>
      if options'.interpretMappers then compiled else compiled.withoutMappers := by
    rw [Program.under]
    split
    · rw [List.map_id']
    · rfl
  rw [ResolvesTo, hrules, List.forall₂_map_right_iff]
  exact List.Forall₂.imp (fun _ _ => Resolver.resolveRule_of_relaxes h) hresolves

/-- What compiles still does under options that ask for less. -/
theorem compile_of_relaxes (h : options'.Relaxes options)
    (hcompile : grammar.compile options = .ok program) :
    grammar.compile options' = .ok (program.under options') := by
  obtain ⟨hnames, hresolves, hacyclic⟩ := compile_eq_ok_iff.1 hcompile
  refine compile_eq_ok_iff.2 ⟨hnames, resolvesTo_of_relaxes h hresolves, fun hreject => ?_⟩
  have hitems : (program.under options').itemLists = program.itemLists := by
    rw [Program.under]
    split
    · rfl
    · exact Program.itemLists_withoutMappers
  rw [Program.checkLeftRecursion_of_itemLists hitems]
  exact hacyclic (h.rejectLeftRecursion hreject)

end Grammar

/-! ### Patterns without values -/

mutual

/-- Nothing in a pattern looks at the value of a match: there are no variables and no functions of
the host in it. -/
def Pattern.isValueFree (grammar : Grammar) : Pattern → Bool
  | .variable _ _ => false
  | .apply function inner _ =>
    (builtinFunctions.contains function || (grammar.template? (some function)).isSome) &&
      inner.isValueFree grammar
  | .group items _ => areValueFree grammar items
  | .literal _ _ | .regex _ _ _ | .any _ | .name _ _ | .template _ _ _ => true

/-- The same for the member of a group. -/
def GroupItem.isValueFree (grammar : Grammar) : GroupItem → Bool
  | .mk _ pattern _ _ => pattern.isValueFree grammar

/-- The same for the members of a sequence. -/
def areValueFree (grammar : Grammar) : List GroupItem → Bool
  | [] => true
  | item :: items => item.isValueFree grammar && areValueFree grammar items

end

/-- A grammar without variables and without functions of the host. -/
def Grammar.isValueFree (grammar : Grammar) : Bool :=
  grammar.rules.all fun rule => rule.alternatives.all fun alternative =>
    areValueFree grammar (alternative.items.map (GroupItem.ofItem false))

namespace Resolver

variable {grammar : Grammar} {options : CompileOptions} {param : Option String}

mutual

theorem resolvePattern_isValueFree {bound : List Nat} : ∀ {pattern : Pattern} {matcher : Matcher},
    pattern.isValueFree grammar = true →
    resolvePattern ⟨grammar, options⟩ param bound pattern = .ok matcher →
    matcher.Every (·.isValueFree = true)
  | .literal _ _, _, _, hresolved | .any _, _, _, hresolved => by
    cases hresolved
    exact .ofLeaf rfl rfl
  | .regex source flags span, _, _, hresolved => by
    obtain ⟨expression, -, rfl⟩ := resolveRegex_cases hresolved
    exact .ofLeaf rfl rfl
  | .name name span, _, _, hresolved => by
    rcases resolveName_cases hresolved with ⟨-, rfl⟩ | ⟨-, id, -, rfl⟩
    · exact .ofLeaf rfl rfl
    · exact .ofLeaf rfl rfl
  | .template function body span, _, _, hresolved => by
    obtain ⟨id, -, rfl⟩ := resolveInstance_cases hresolved
    exact .ofLeaf rfl rfl
  | .apply function inner span, matcher, hfree, hresolved => by
    rw [Pattern.isValueFree, Bool.and_eq_true] at hfree
    obtain ⟨hknown, hinner⟩ := hfree
    cases applied_of_resolvePattern hresolved with
    | builtin hmake hbody =>
      have hbody := resolvePattern_isValueFree hinner hbody
      unfold builtin? at hmake
      split at hmake <;> cases hmake <;> exact .ofBody rfl rfl hbody
    | template hbuiltin hid => exact .ofLeaf rfl rfl
    | external hbuiltin htemplate =>
      -- a function of the host is neither of the two that are allowed
      rw [Bool.or_eq_true, List.contains_iff_mem, ← builtin?_isSome_iff, hbuiltin,
        show grammar.template? (some function) = none from htemplate] at hknown
      rcases hknown with hknown | hknown <;> cases hknown
  | .group items span, _, hfree, hresolved => by
    obtain ⟨matchers, hmatchers, rfl⟩ := resolveGroup_cases hresolved
    exact .ofMembers rfl (resolveGroupItems_isValueFree hfree hmatchers)

theorem resolveGroupItem_isValueFree {bound : List Nat} : ∀ {item : GroupItem} {matcher : Matcher},
    item.isValueFree grammar = true →
    resolveGroupItem ⟨grammar, options⟩ param bound item = .ok matcher →
    matcher.Every (·.isValueFree = true)
  | .mk _ _ repetition _, _, hfree, hresolved => by
    rw [resolveGroupItem] at hresolved
    obtain ⟨body, hbody, hresolved⟩ := bind_eq_ok_iff.1 hresolved
    cases hresolved
    have hbody := resolvePattern_isValueFree hfree hbody
    cases repetition with
    | none => exact hbody
    | some repetition => exact .ofBody rfl rfl hbody

theorem resolveGroupItems_isValueFree {outer : List Nat} : ∀ {items : List GroupItem} {index : Nat}
    {matchers : List Matcher}, areValueFree grammar items = true →
    resolveGroupItems ⟨grammar, options⟩ param outer index items = .ok matchers →
    ∀ matcher ∈ matchers, matcher.Every (·.isValueFree = true)
  | [], _, _, _, hresolved => by
    cases hresolved
    exact List.forall_mem_nil _
  | _ :: _, _, _, hfree, hresolved => by
    rw [areValueFree, Bool.and_eq_true] at hfree
    rw [resolveGroupItems] at hresolved
    obtain ⟨matcher, hmatcher, hresolved⟩ := bind_eq_ok_iff.1 hresolved
    obtain ⟨matchers, hmatchers, hresolved⟩ := bind_eq_ok_iff.1 hresolved
    cases hresolved
    exact List.forall_mem_cons.2 ⟨resolveGroupItem_isValueFree hfree.1 hmatcher,
      resolveGroupItems_isValueFree hfree.2 hmatchers⟩

end

theorem resolveAlternative_isValueFree {alternative : Alternative} {compiled : CompiledAlternative}
    (hfree : areValueFree grammar (alternative.items.map (GroupItem.ofItem false)) = true)
    (hresolved : resolveAlternative ⟨grammar, options⟩ param alternative = .ok compiled) :
    ∀ item ∈ compiled.items, item.Every (·.isValueFree = true) :=
  resolveGroupItems_isValueFree hfree (resolveAlternative_items hresolved)

end Resolver

/-- A grammar without variables and functions of the host compiles to a program without. -/
theorem Grammar.ResolvesTo.isValueFree {grammar : Grammar} {options : CompileOptions}
    {program : Program} (hfree : grammar.isValueFree = true)
    (h : grammar.ResolvesTo options program) : program.Every (·.isValueFree = true) := by
  intro compiled hcompiled part hpart
  obtain ⟨rule, hrule, hresolved⟩ := exists_of_mem_right h hcompiled
  obtain ⟨alternatives, halternatives, rfl⟩ := Resolver.resolveRule_eq_ok_iff.1 hresolved
  obtain ⟨made, hmade, hpart⟩ := List.mem_flatMap.1 hpart
  obtain ⟨alternative, halternative, hresolved⟩ := exists_of_mem_right halternatives hmade
  obtain ⟨item, hitem, hpart⟩ := mem_partsOfAll.1 hpart
  have hitems := List.all_eq_true.1 (List.all_eq_true.1 hfree rule hrule) alternative halternative
  exact Resolver.resolveAlternative_isValueFree hitems hresolved item hitem part hpart

/-! ### Relaxed options -/

/-- Asking for less keeps the programs that compile, but for mappers that are not read any more, so
whatever the default options accept a parser can be generated from.  Where no values are looked at,
all rules match alike under the options of both. -/
theorem Grammar.compile_relaxed (grammar : Grammar) :
    (∀ options options' program, options'.Relaxes options →
      grammar.compile options = .ok program →
        grammar.compile options' = .ok (program.under options')) ∧
    (∀ program, grammar.compile {} = .ok program →
      grammar.compile .forCodegen = .ok program.withoutMappers) ∧
    (grammar.isValueFree = true → ∀ options options' program program',
      options'.Relaxes options → grammar.compile options = .ok program →
      grammar.compile options' = .ok program' →
        (∀ fuel id param input start, (program'.call fuel id param input start).ending? =
          (program.call fuel id param input start).ending?) ∧
        (∀ id input start, (program'.runRule id input start).ending? =
          (program.runRule id input start).ending?) ∧
        ∀ subject entry full, (program'.execute subject entry full).map (·.stop) =
          (program.execute subject entry full).map (·.stop)) := by
  refine ⟨fun options options' program => compile_of_relaxes, fun program hcompile => ?_, ?_⟩
  · exact compile_of_relaxes CompileOptions.forCodegen_relaxes hcompile
  · intro hfree options options' program program' hrelaxes hcompile hcompile'
    have hvalues := ResolvesTo.isValueFree hfree (compile_eq_ok_iff.1 hcompile).2.1
    rw [compile_of_relaxes hrelaxes hcompile] at hcompile'
    obtain rfl := Except.ok.inj hcompile'
    rw [Program.under]
    split
    · exact ⟨fun _ _ _ _ _ => rfl, fun _ _ _ => rfl, fun _ _ _ => rfl⟩
    · refine ⟨fun fuel id param input start => ?_, fun id input start => ?_, ?_⟩
      · exact (Program.call_endsAlike hvalues fuel id param input start).ending
      · exact (Program.runRule_endsAlike hvalues id input start).ending
      · exact Program.execute_withoutMappers hvalues

namespace Swapped

/-- `pair = "a" "b"*` with its captures the other way round. -/
def grammar : Grammar :=
  { rules := [⟨.simple "pair", none,
      [⟨[⟨.literal "a" {}, none, {}⟩, ⟨.literal "b" {}, some .any, {}⟩],
        some ⟨"[$1, $0]", {}⟩, {}⟩], {}⟩] }

def program : Program :=
  ⟨[⟨.simple "pair", false, [⟨[.literal "a", .repeated (.literal "b") .any],
    some (.list [.capture 1, .capture 0])⟩], {}⟩]⟩

/-- Without the mapper the captures are in their order, and the pairs are the same. -/
theorem pairs_endAlike :
    CompileOptions.forCodegen.Relaxes {} ∧ grammar.compile {} = .ok program ∧
      grammar.compile .forCodegen = .ok program.withoutMappers ∧ grammar.isValueFree = true ∧
      ∀ subject entry full, (program.withoutMappers.execute subject entry full).map (·.stop) =
        (program.execute subject entry full).map (·.stop) := by
  have hrelaxes := CompileOptions.forCodegen_relaxes
  have hcompile : grammar.compile {} = .ok program := Program.eq_ok_of_same (by decide +kernel)
  have hfree : grammar.isValueFree = true := by decide
  obtain ⟨hrelaxed, -, halike⟩ := Grammar.compile_relaxed grammar
  have hcompile' := hrelaxed {} .forCodegen program hrelaxes hcompile
  exact ⟨hrelaxes, hcompile, hcompile', hfree,
    (halike hfree {} .forCodegen program program.withoutMappers hrelaxes hcompile hcompile').2.2⟩

end Swapped

end Peg
