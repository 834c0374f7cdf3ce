import Gleaner.Proofs.Regex.Lexemes
import Gleaner.Proofs.Regex.Ways

/-!
# Reading a pattern's text

The second step of reading puts the lexemes of a text together to a pattern, from left to right. A
repetition takes the piece before it, a bar ends a branch, and a parenthesis that closes makes one
piece of all branches since it was opened.

Text does not tell how the pieces of a sequence were put together, so what is read is the canonical
form of the pattern that was spelled: sequences and choices associate to the right, and nothing
empty stands between them. The canonical form matches in the same ways.
-/

namespace Gleaner

namespace Regex

/-- A choice of sequences. -/
def ofBranches : List (List Regex) → Regex
  | [] => empty
  | [last] => concat last
  | first :: rest => alt (concat first) (ofBranches rest)

/-- Some branches as a part of a sequence. -/
def piecesOf : List (List Regex) → List Regex
  | [only] => only
  | branches => [ofBranches branches]

/-- The branches of a pattern, each with its pieces. -/
def branches : Regex → List (List Regex)
  | empty => [[]]
  -- A choice inside a sequence stands in parentheses, so that a sequence has one branch.
  | seq first second => [piecesOf first.branches ++ piecesOf second.branches]
  | alt first second => first.branches ++ second.branches
  | optional body => [[optional (ofBranches body.branches)]]
  | star greed body => [[star greed (ofBranches body.branches)]]
  | plus greed body => [[plus greed (ofBranches body.branches)]]
  | group kind body => [[group kind (ofBranches body.branches)]]
  | char set => [[char set]]
  | textStart => [[textStart]]
  | textEnd => [[textEnd]]
  | look side wanted set => [[look side wanted set]]

/-- The pattern with its sequences and choices associated to the right. -/
def canonical (regex : Regex) : Regex :=
  ofBranches regex.branches

/-- What a pattern adds to a sequence that it stands in. -/
def pieces (regex : Regex) : List Regex :=
  piecesOf regex.branches

@[simp] theorem pieces_append (first second : Regex) :
    (first ++ second).pieces = first.pieces ++ second.pieces := rfl

@[simp] theorem pieces_group (kind : GroupKind) (body : Regex) :
    (group kind body).pieces = [group kind body.canonical] := rfl

@[simp] theorem pieces_concat (parts : List Regex) :
    (concat parts).pieces = parts.flatMap pieces := by
  induction parts with
  | nil => rfl
  | cons first rest ih =>
    cases rest with
    | nil => simp [concat]
    | cons second rest => exact congrArg (first.pieces ++ ·) ih

theorem branches_ne_nil (regex : Regex) : regex.branches ≠ [] := by
  induction regex <;> simp_all [branches]

/-- A literal is the sequence of its characters. -/
theorem branches_literal (text : List Char) :
    (literal text).branches = [text.map fun c => char (.exactly c)] := by
  induction text with
  | nil => rfl
  | cons c rest ih =>
    cases rest with
    | nil => rfl
    | cons second rest =>
      calc (literal (c :: second :: rest)).branches
          = [[char (.exactly c)] ++ piecesOf (literal (second :: rest)).branches] := rfl
        _ = _ := by rw [ih]; rfl

/-! ### The canonical form matches in the same ways -/

theorem ways_concat_append (text : Array Char) (first second : List Regex) (pos : Nat) :
    (concat (first ++ second)).ways text pos =
      Way.chain ((concat first).ways text pos) ((concat second).ways text) := by
  induction first generalizing pos with
  | nil => exact (Way.chain_stay pos _).symm
  | cons regex rest ih =>
    rw [List.cons_append, ways_concat_cons, ways_concat_cons, Way.chain_assoc]
    exact Way.chain_congr fun way _ => ih way.stop

theorem ways_ofBranches_cons (text : Array Char) (first : List Regex) {rest : List (List Regex)}
    (more : rest ≠ []) (pos : Nat) :
    (ofBranches (first :: rest)).ways text pos =
      (concat first).ways text pos ++ (ofBranches rest).ways text pos := by
  cases rest with
  | nil => exact absurd rfl more
  | cons second rest => rfl

theorem ways_ofBranches_append (text : Array Char) {first second : List (List Regex)}
    (some : first ≠ []) (some' : second ≠ []) (pos : Nat) :
    (ofBranches (first ++ second)).ways text pos =
      (ofBranches first).ways text pos ++ (ofBranches second).ways text pos := by
  induction first with
  | nil => exact absurd rfl some
  | cons branch rest ih =>
    rw [List.cons_append, ways_ofBranches_cons _ _ (by simp [some'])]
    cases rest with
    | nil => rfl
    | cons next rest =>
      rw [ih (by simp), ways_ofBranches_cons _ branch (by simp), List.append_assoc]

theorem ways_piecesOf (text : Array Char) (branches : List (List Regex)) :
    (concat (piecesOf branches)).ways text = (ofBranches branches).ways text := by
  match branches with
  | [] | [_] | _ :: _ :: _ => rfl

/-- How a pattern's sequences and choices were put together makes no difference. -/
theorem ways_canonical (text : Array Char) (regex : Regex) :
    regex.canonical.ways text = regex.ways text := by
  induction regex with
  | empty | char | textStart | textEnd | look => rfl
  | seq first second ih ih' =>
    funext pos
    -- Both halves have been cut into pieces, and are put together piece by piece.
    calc (seq first second).canonical.ways text pos
        = Way.chain ((concat (piecesOf first.branches)).ways text pos)
            ((concat (piecesOf second.branches)).ways text) := ways_concat_append text _ _ pos
      _ = Way.chain (first.canonical.ways text pos) (second.canonical.ways text) := by
        rw [ways_piecesOf, ways_piecesOf, canonical, canonical]
      _ = (seq first second).ways text pos := by rw [ih, ih', ways]
  | alt first second ih ih' =>
    funext pos
    calc (alt first second).canonical.ways text pos
        = first.canonical.ways text pos ++ second.canonical.ways text pos :=
          ways_ofBranches_append text first.branches_ne_nil second.branches_ne_nil pos
      _ = (alt first second).ways text pos := by rw [ih, ih', ways]
  | optional body ih | star greed body ih | plus greed body ih =>
    funext pos
    simp only [ways, ← ih]
    rfl
  | group kind body ih =>
    funext pos
    cases kind <;> simp only [ways, ← ih] <;> rfl

theorem groupNames_ofBranches (branches : List (List Regex)) :
    (ofBranches branches).groupNames = branches.flatten.flatMap groupNames := by
  induction branches with
  | nil => rfl
  | cons first rest ih =>
    cases rest with
    | nil => simp [ofBranches]
    | cons second rest => simp [ofBranches, groupNames, ih]

theorem groupNames_canonical (regex : Regex) : regex.canonical.groupNames = regex.groupNames := by
  -- Cutting into pieces keeps the names and their order.
  have pieces (branches : List (List Regex)) :
      (piecesOf branches).flatMap groupNames = (ofBranches branches).groupNames := by
    match branches with
    | [] | [_] | _ :: _ :: _ => simp [piecesOf, ofBranches]
  induction regex with
  | empty | char | textStart | textEnd | look => rfl
  | seq first second ih ih' =>
    rw [canonical, branches, ofBranches, groupNames_concat, List.flatMap_append, pieces, pieces]
    exact congrArg₂ (· ++ ·) ih ih'
  | alt first second ih ih' =>
    rw [canonical, branches, groupNames_ofBranches, List.flatten_append, List.flatMap_append,
      ← groupNames_ofBranches, ← groupNames_ofBranches]
    exact congrArg₂ (· ++ ·) ih ih'
  | optional body ih | star greed body ih | plus greed body ih => exact ih
  | group kind body ih => exact congrArg (kind.name?.toList ++ ·) ih

end Regex

/-! ### The reader -/

/-- What was read since a parenthesis was opened. -/
structure Level where
  /-- The branches that were ended by a bar. -/
  done : List (List Regex)
  /-- The pieces of the branch that is being read, the last one first. -/
  pieces : List Regex
deriving DecidableEq, Repr, Inhabited

namespace Level

def start : Level :=
  ⟨[], []⟩

def branches (level : Level) : List (List Regex) :=
  level.done ++ [level.pieces.reverse]

def push (level : Level) (piece : Regex) : Level :=
  ⟨level.done, piece :: level.pieces⟩

def endBranch (level : Level) : Level :=
  ⟨level.branches, []⟩

/-- The last piece is repeated, if it is something that can be. -/
def repeated (level : Level) (repetition : Regex → Regex) : Option Level :=
  match level.pieces with
  | .char set :: before => some ⟨level.done, repetition (.char set) :: before⟩
  | .group kind body :: before => some ⟨level.done, repetition (.group kind body) :: before⟩
  | _ => none

end Level

/-- The piece that a pair of parentheses makes of what is between them. -/
def Opening.close (parenthesis : Opening) (branches : List (List Regex)) : Option Regex :=
  match parenthesis, branches with
  | group kind, branches => some (.group kind (.ofBranches branches))
  | look side wanted, [[.char set]] => some (.look side wanted set)
  | look _ _, _ => none

/-- A pattern that is being read: what stands inside all open parentheses, and what stands before
each of them, the last one first. -/
structure ReadState where
  level : Level
  outer : List (Opening × Level)
deriving DecidableEq, Repr, Inhabited

namespace ReadState

def onLevel (state : ReadState) (level : Level) : ReadState :=
  ⟨level, state.outer⟩

/-- Reads one lexeme. -/
def step (state : ReadState) : Lexeme → Option ReadState
  | .set set => some (state.onLevel (state.level.push (.char set)))
  | .textStart => some (state.onLevel (state.level.push .textStart))
  | .textEnd => some (state.onLevel (state.level.push .textEnd))
  | .bar => some (state.onLevel state.level.endBranch)
  | .maybe => (state.level.repeated .optional).map state.onLevel
  | .star greed => (state.level.repeated (.star greed)).map state.onLevel
  | .plus greed => (state.level.repeated (.plus greed)).map state.onLevel
  -- What was read before the parenthesis waits until it is closed.
  | .opening parenthesis => some ⟨.start, (parenthesis, state.level) :: state.outer⟩
  | .closing =>
    match state.outer with
    | [] => none
    | (parenthesis, level) :: outer =>
      (parenthesis.close state.level.branches).map fun piece => ⟨level.push piece, outer⟩

/-- The pattern that was read, if all parentheses are closed. -/
def finish (state : ReadState) : Option Regex :=
  if state.outer.isEmpty then some (.ofBranches state.level.branches) else none

end ReadState

/-- Reads a pattern from its text. -/
def Regex.read (text : String) : Option Regex := do
  let lexemes ← Lexeme.lex text.toList
  let state ← lexemes.foldlM ReadState.step ⟨.start, []⟩
  state.finish

/-! ### Reading what was spelled -/

namespace Level

/-- A level and some branches behind it: the first goes on with the branch that is being read. -/
def extend (level : Level) : List (List Regex) → Level
  | [] => level
  | first :: rest =>
    rest.foldl (fun level pieces => ⟨level.branches, pieces.reverse⟩)
      ⟨level.done, first.reverse ++ level.pieces⟩

theorem extend_append (level : Level) {first second : List (List Regex)} (some : first ≠ [])
    (some' : second ≠ []) :
    level.extend (first ++ second) = (level.extend first).endBranch.extend second := by
  obtain ⟨pieces, rest, rfl⟩ := List.exists_cons_of_ne_nil some
  obtain ⟨pieces', rest', rfl⟩ := List.exists_cons_of_ne_nil some'
  simp [extend, endBranch, List.foldl_append]

/-- From the start of a level on nothing but the branches is there. -/
theorem branches_extend_start {branches : List (List Regex)} (some : branches ≠ []) :
    (start.extend branches).branches = branches := by
  -- Each further branch ends the one before it.
  have folded (rest : List (List Regex)) (level : Level) :
      (rest.foldl (fun level pieces => ⟨level.branches, pieces.reverse⟩) level).branches =
        level.branches ++ rest := by
    induction rest generalizing level with
    | nil => simp
    | cons pieces rest ih =>
      rw [List.foldl_cons, ih, Level.branches, List.reverse_reverse, List.append_assoc]
      rfl
  obtain ⟨first, rest, rfl⟩ := List.exists_cons_of_ne_nil some
  rw [extend, folded]
  simp [Level.branches, start]

end Level

namespace Regex

/-- Whether a repetition can apply to a pattern without parentheses around it. -/
def isUnit : Regex → Bool
  | char _ | group _ _ => true
  | _ => false

/-- A pattern whose text has parentheses wherever they are needed, and only readable sets. `choice`
says whether a choice may stand there without parentheses. -/
def Tidy (choice : Bool) : Regex → Prop
  | empty | textStart | textEnd => True
  | char set | look _ _ set => set.Readable
  | seq first second => first.Tidy false ∧ second.Tidy false
  | alt first second => choice = true ∧ first.Tidy true ∧ second.Tidy true
  | optional body | star _ body | plus _ body => body.isUnit ∧ body.Tidy false
  | group _ body => body.Tidy true

namespace Tidy

theorem mono {regex : Regex} (tidy : regex.Tidy false) : regex.Tidy true := by
  cases regex with
  | alt first second => cases tidy.1
  | _ => exact tidy

/-- Without a choice there is one branch. -/
theorem branches_eq {regex : Regex} (tidy : regex.Tidy false) :
    regex.branches = [piecesOf regex.branches] := by
  cases regex with
  | alt first second => cases tidy.1
  | _ => rfl

/-- Reading the lexemes of a pattern adds its branches to what was read before. -/
theorem run {regex : Regex} {choice : Bool} (tidy : regex.Tidy choice) (state : ReadState) :
    regex.lexemes.foldlM ReadState.step state =
      some (state.onLevel (state.level.extend regex.branches)) := by
  induction regex generalizing choice state with
  | empty | char | textStart | textEnd | look => rfl
  | seq first second ih ih' =>
    -- Neither part is a choice, so both add their pieces to the branch that is being read.
    obtain ⟨tidy, tidy'⟩ := tidy
    rw [lexemes, List.foldlM_append, ih tidy, Option.bind_eq_bind, Option.bind_some, ih' tidy', branches,
      tidy.branches_eq, tidy'.branches_eq]
    simp [ReadState.onLevel, Level.extend, piecesOf]
  | alt first second ih ih' =>
    obtain ⟨-, tidy, tidy'⟩ := tidy
    rw [lexemes, List.foldlM_append, ih tidy, branches,
      Level.extend_append _ first.branches_ne_nil second.branches_ne_nil]
    exact ih' tidy' _
  | optional body ih | star greed body ih | plus greed body ih =>
    obtain ⟨unit, tidy⟩ := tidy
    rw [lexemes, List.foldlM_append, ih tidy]
    -- The body is one piece, so it is the last one when the repetition is read.
    cases body with
    | char | group => rfl
    | _ => cases unit
  | group kind body ih =>
    -- Inside the parentheses a new level begins, and nothing else is on it when they are closed.
    have inside := ih tidy ⟨.start, (.group kind, state.level) :: state.outer⟩
    rw [lexemes, List.foldlM_cons, ReadState.step, Option.bind_eq_bind, Option.bind_some,
      List.foldlM_append, inside]
    simp only [ReadState.onLevel, List.foldlM_cons, ReadState.step, Opening.close, List.foldlM_nil,
      Option.pure_def, Option.bind_eq_bind, Option.bind_fun_some, Option.bind_some, Option.map_some,
      Level.branches_extend_start body.branches_ne_nil]
    rfl

theorem readable_of_mem {regex : Regex} {choice : Bool} (tidy : regex.Tidy choice) {lexeme : Lexeme}
    (member : lexeme ∈ regex.lexemes) : lexeme.Readable := by
  -- On the pattern; every lexeme comes from one of its parts or is a mark of its own.
  induction regex generalizing choice with
  | empty => cases member
  | char set =>
    cases List.mem_singleton.mp member
    exact tidy
  | textStart | textEnd =>
    cases List.mem_singleton.mp member
    trivial
  | look side wanted set =>
    simp only [lexemes, List.mem_cons, List.not_mem_nil, or_false] at member
    rcases member with rfl | rfl | rfl
    · trivial
    · exact tidy
    · trivial
  | seq first second ih ih' => exact (List.mem_append.mp member).elim (ih tidy.1) (ih' tidy.2)
  | alt first second ih ih' =>
    rcases List.mem_append.mp member with before | behind
    · exact ih tidy.2.1 before
    · rcases List.mem_cons.mp behind with rfl | behind
      · trivial
      · exact ih' tidy.2.2 behind
  | optional body ih | star greed body ih | plus greed body ih =>
    rcases List.mem_append.mp member with before | last
    · exact ih tidy.2 before
    · cases List.mem_singleton.mp last
      trivial
  | group kind body ih =>
    simp only [lexemes, List.mem_cons, List.mem_append, List.not_mem_nil, or_false] at member
    rcases member with rfl | inside | rfl
    · trivial
    · exact ih tidy inside
    · trivial

private theorem head?_append {first second : List Lexeme} (unmarked : first.head? ≠ some .maybe)
    (unmarked' : second.head? ≠ some .maybe) : (first ++ second).head? ≠ some .maybe := by
  cases first with
  | nil => exact unmarked'
  | cons => exact unmarked

theorem head?_lexemes {regex : Regex} {choice : Bool} (tidy : regex.Tidy choice) :
    regex.lexemes.head? ≠ some .maybe := by
  induction regex generalizing choice with
  | empty | char | textStart | textEnd | look | group => simp [lexemes]
  | seq first second ih ih' => exact head?_append (ih tidy.1) (ih' tidy.2)
  | alt first second ih ih' => exact head?_append (ih tidy.2.1) (by simp)
  | optional body ih | star greed body ih | plus greed body ih =>
    cases body with
    | char | group => simp [lexemes]
    | _ => cases tidy.1

theorem endsUnit_of_isUnit {regex : Regex} (unit : regex.isUnit) {last : Lexeme}
    (found : last ∈ regex.lexemes.getLast?) : last.endsUnit := by
  cases regex with
  | char set =>
    cases found
    rfl
  | group kind body =>
    rw [lexemes, List.getLast?_cons, List.getLast?_concat] at found
    cases found
    rfl
  | _ => cases unit

/-- Every mark in a tidy pattern stands behind something that it can apply to. -/
theorem proper_lexemes {regex : Regex} {choice : Bool} (tidy : regex.Tidy choice) :
    regex.lexemes.IsChain Lexeme.Follows := by
  have joined {first second : List Lexeme} (proper : first.IsChain Lexeme.Follows)
      (proper' : second.IsChain Lexeme.Follows) (unmarked : second.head? ≠ some .maybe) :
      (first ++ second).IsChain Lexeme.Follows := by
    -- Only a mark asks for anything before it.
    refine List.isChain_append.mpr ⟨proper, proper', fun _ _ next found mark => ?_⟩
    exact absurd (mark ▸ found) unmarked
  induction regex generalizing choice with
  | empty => exact .nil
  | char | textStart | textEnd => exact .singleton _
  | look side wanted set => simp [lexemes, Lexeme.Follows]
  | seq first second ih ih' => exact joined (ih tidy.1) (ih' tidy.2) tidy.2.head?_lexemes
  | alt first second ih ih' =>
    exact joined (ih tidy.2.1) (joined (.singleton _) (ih' tidy.2.2) tidy.2.2.head?_lexemes) (by simp)
  | optional body ih =>
    refine List.isChain_append.mpr ⟨ih tidy.2, .singleton _, fun last found next _ _ => ?_⟩
    exact endsUnit_of_isUnit tidy.1 found
  | star greed body ih | plus greed body ih => exact joined (ih tidy.2) (.singleton _) (by simp)
  | group kind body ih =>
    have tidy : body.Tidy true := tidy
    have inside := joined (ih tidy) (.singleton Lexeme.closing) (by simp)
    exact joined (.singleton _) inside (head?_append tidy.head?_lexemes (by simp))

theorem literal (text : List Char) : (Regex.literal text).Tidy false := by
  induction text with
  | nil => trivial
  | cons c rest ih =>
    have here := CharSet.readable_exactly c
    cases rest with
    | nil => exact here
    | cons => exact ⟨here, ih⟩

end Tidy

/-- Without a choice a pattern is the sequence of its pieces. -/
theorem Tidy.canonical_eq {regex : Regex} (tidy : regex.Tidy false) :
    regex.canonical = concat regex.pieces := by
  rw [canonical, tidy.branches_eq]
  rfl

/-- The text of a pattern is read as a tree, which has the same groups and matches in the same
ways. -/
structure ReadAs (regex tree : Regex) : Prop where
  read : Regex.read regex.text = some tree
  ways : ∀ text, tree.ways text = regex.ways text
  groupNames : tree.groupNames = regex.groupNames

/-- What is read is the sequence of the pieces of the pattern. -/
theorem Tidy.readAs {regex : Regex} (tidy : regex.Tidy false) :
    regex.ReadAs (concat regex.pieces) := by
  rw [← tidy.canonical_eq]
  refine ⟨?_, regex.ways_canonical, regex.groupNames_canonical⟩
  have cut : Lexeme.lex regex.text.toList = some regex.lexemes := by
    rw [text, String.toList_ofList, spell_eq_flatMap]
    exact Lexeme.lex_flatMap_spell (fun _ => tidy.readable_of_mem) tidy.proper_lexemes
  simp [read, cut, tidy.run, ReadState.finish, ReadState.onLevel, canonical,
    Level.branches_extend_start regex.branches_ne_nil]

/-- Escaped characters are read as themselves, and others are not. -/
example : Regex.read "a\\|(b|c)+?" = some (.concat [.char (.exactly 'a'), .char (.exactly '|'),
    .plus .lazy (.group .plain (.alt (.char (.exactly 'b')) (.char (.exactly 'c'))))]) := by
  decide +kernel

end Regex

end Gleaner
