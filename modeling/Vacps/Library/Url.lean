import Mathlib.Data.List.TakeWhile
import Vacps.Library.Percent
import Vacps.Library.Segments

/- The URL parser of the web platform on a reference that starts at the root of an http(s) host: which path and
   which query it asks the host for. -/
set_option autoImplicit false

namespace Library.Url

open Library.Percent Library.Utf8

-- The dots a segment is made of, each written out or escaped; none for any other segment.
def dots : List Char → Option Nat
  | [] => some 0
  | '.' :: rest => (dots rest).map (· + 1)
  | '%' :: '2' :: 'e' :: rest => (dots rest).map (· + 1)
  | '%' :: '2' :: 'E' :: rest => (dots rest).map (· + 1)
  | _ => none

def singleDot (segment : List Char) : Bool := dots segment = some 1

def doubleDot (segment : List Char) : Bool := dots segment = some 2

def beyond (char : Char) : Bool := char.toNat < 0x20 || 0x7E < char.toNat

def queryMarks : List Char := [' ', '"', '#', '<', '>', '\'']

def pathMarks : List Char := [' ', '"', '#', '<', '>', '?', '^', Char.ofNat 96, '\x7b', '\x7d']

def encodeSet (marks : List Char) (char : Char) : List Char :=
  if beyond char || marks.contains char then escapes (utf8Code.word char) else [char]

def isSlash (char : Char) : Bool := char = '/' || char = '\\'

-- The path state, one segment a step; a dot segment at the end leaves an empty one.
def walk : List (List Char) → List (List Char) → List (List Char)
  | path, [] => path
  | path, [last] =>
      if doubleDot last then path.dropLast ++ [[]]
      else if singleDot last then path ++ [[]]
      else path ++ [last.flatMap (encodeSet pathMarks)]
  | path, segment :: next :: rest =>
      if doubleDot segment then walk path.dropLast (next :: rest)
      else if singleDot segment then walk path (next :: rest)
      else walk (path ++ [segment.flatMap (encodeSet pathMarks)]) (next :: rest)

structure Target where
  path : List Char
  query : Option (List Char)
deriving DecidableEq, Repr

def isIgnored (char : Char) : Bool := char = '\t' || char = '\n' || char = '\r'

def isTrimmed (char : Char) : Bool := char.toNat ≤ 0x20

def trimmed (text : List Char) : List Char := ((text.dropWhile isTrimmed).reverse.dropWhile isTrimmed).reverse

def cleaned (text : List Char) : List Char := (trimmed text).filter fun char => !isIgnored char

def queryOf (address : List Char) : Option (List Char) :=
  match address.dropWhile fun char => char ≠ '?' with
  | [] => none
  | _ :: query => some (query.flatMap (encodeSet queryMarks))

-- new URL(text, base); none for a text that does not start with exactly one slash.
def resolve (text : List Char) : Option Target :=
  let address := (cleaned text).takeWhile fun char => char ≠ '#'
  match address.takeWhile fun char => char ≠ '?' with
  | [] => none
  | first :: rest =>
      if isSlash first && !(rest.head?.any isSlash) then
        some ⟨rooted '/' (walk [] (rest.splitOnP isSlash)), queryOf address⟩
      else none

-- pathname + search
def Target.text (target : Target) : List Char :=
  target.path ++ match target.query with
    | none => []
    | some query => if query = [] then [] else '?' :: query

-- The characters the parser leaves as they are where it encodes the marks.
def inert (marks : List Char) (char : Char) : Bool := !beyond char && !marks.contains char && !isSlash char

theorem inert_plain (marks letters : List Char) (known : letters.all (inert marks) = true)
    (bare : ∀ value : Fin 123, isAlphanumeric (Char.ofNat value) = true → inert marks (Char.ofNat value) = true) (char : Char)
    (inside : plain letters char = true) : inert marks char = true := by
  rw [plain, Bool.or_eq_true] at inside
  rcases inside with digit | mark
  · have code : char = Char.ofNat char.toNat := (Char.ofNat_toNat char).symm
    rw [isAlphanumeric] at digit
    simp only [Bool.or_eq_true, Bool.and_eq_true, decide_eq_true_eq] at digit
    rw [code]
    refine bare ⟨char.toNat, by omega⟩ ?_
    rw [← code, isAlphanumeric]
    simpa using digit
  · exact List.all_eq_true.mp known char (List.contains_iff_mem.mp mark)

theorem inert_encodes (marks : List Char) (char : Char) (kept : inert marks char = true) : encodeSet marks char = [char] := by
  simp only [inert, Bool.and_eq_true, Bool.not_eq_true'] at kept
  rw [encodeSet, kept.1.1, kept.1.2]
  rfl

theorem inert_slash (marks : List Char) (char : Char) (kept : inert marks char = true) : isSlash char = false := by
  simp only [inert, Bool.and_eq_true, Bool.not_eq_true'] at kept
  exact kept.2

theorem inert_other (marks : List Char) (char mark : Char) (kept : inert marks char = true) (encoded : mark ∈ marks) : char ≠ mark := by
  rintro rfl
  simp only [inert, Bool.and_eq_true, Bool.not_eq_true'] at kept
  rw [List.contains_iff_mem.mpr encoded] at kept
  exact absurd kept.1.2 (by simp)

theorem inert_clean (marks : List Char) (char : Char) (space : ' ' ∈ marks) (kept : inert marks char = true) :
    isTrimmed char = false ∧ isIgnored char = false := by
  have code : char.toNat ≠ 0x20 :=
    fun same => inert_other marks char ' ' kept space (by rw [← Char.ofNat_toNat char, same])
  simp only [inert, Bool.and_eq_true, Bool.not_eq_true', beyond, Bool.or_eq_false_iff, decide_eq_false_iff_not] at kept
  refine ⟨?_, ?_⟩
  · simp only [isTrimmed, decide_eq_false_iff_not]
    omega
  · have high : ∀ control : Char, control.toNat < 0x20 → char ≠ control := by
      rintro control below rfl
      omega
    simp only [isIgnored, Bool.or_eq_false_iff, decide_eq_false_iff_not]
    exact ⟨⟨high _ (by decide), high _ (by decide)⟩, high _ (by decide)⟩

theorem inert_encoded (marks : List Char) (text : List Char) (kept : ∀ char ∈ text, encodeSet marks char = [char]) :
    text.flatMap (encodeSet marks) = text := by
  induction text with
  | nil => rfl
  | cons char rest ih =>
      rw [List.flatMap_cons, kept char List.mem_cons_self, ih fun other member => kept other (List.mem_cons_of_mem _ member)]
      rfl

-- A path of inert names with no dot segment is walked as it stands.
theorem walk_plain (path segments : List (List Char)) (plain : ∀ segment ∈ segments, ∀ char ∈ segment, inert pathMarks char = true)
    (whole : ∀ segment ∈ segments, singleDot segment = false ∧ doubleDot segment = false) : walk path segments = path ++ segments := by
  induction segments generalizing path with
  | nil => simp [walk]
  | cons segment rest ih =>
      obtain ⟨single, double⟩ := whole segment List.mem_cons_self
      have same : segment.flatMap (encodeSet pathMarks) = segment :=
        inert_encoded _ _ fun char member => inert_encodes _ char (plain segment List.mem_cons_self char member)
      cases rest with
      | nil => simp [walk, single, double, same]
      | cons next rest =>
          rw [walk, single, double, same, if_neg (by simp), if_neg (by simp),
            ih (path ++ [segment]) (fun other member => plain other (List.mem_cons_of_mem _ member))
              fun other member => whole other (List.mem_cons_of_mem _ member), List.append_assoc]
          rfl

-- Every name that is left was asked for, but for the empty one a dot segment leaves at the end.
theorem walk_inside (path segments : List (List Char)) (plain : ∀ segment ∈ segments, ∀ char ∈ segment, inert pathMarks char = true)
    (name : List Char) (left : name ∈ walk path segments) : name ∈ path ∨ name ∈ segments ∨ name = [] := by
  have kept : ∀ segment ∈ segments, segment.flatMap (encodeSet pathMarks) = segment :=
    fun segment member => inert_encoded _ _ fun char written => inert_encodes _ char (plain segment member char written)
  induction path, segments using walk.induct with
  | case1 path => exact Or.inl left
  | case2 path last double =>
      rw [walk, if_pos double] at left
      rcases List.mem_append.mp left with before | empty
      · exact Or.inl (List.dropLast_subset _ before)
      · exact Or.inr (Or.inr (List.mem_singleton.mp empty))
  | case3 path last other single =>
      rw [walk, if_neg other, if_pos single] at left
      rcases List.mem_append.mp left with before | empty
      · exact Or.inl before
      · exact Or.inr (Or.inr (List.mem_singleton.mp empty))
  | case4 path last other alone =>
      rw [walk, if_neg other, if_neg alone, kept last List.mem_cons_self] at left
      rcases List.mem_append.mp left with before | here
      · exact Or.inl before
      · exact Or.inr (Or.inl here)
  | case5 path segment next rest double ih =>
      rw [walk, if_pos double] at left
      have later := ih (fun other member => plain other (List.mem_cons_of_mem _ member)) left
        fun other member => kept other (List.mem_cons_of_mem _ member)
      rcases later with before | inside | empty
      · exact Or.inl (List.dropLast_subset _ before)
      · exact Or.inr (Or.inl (List.mem_cons_of_mem _ inside))
      · exact Or.inr (Or.inr empty)
  | case6 path segment next rest other single ih =>
      rw [walk, if_neg other, if_pos single] at left
      have later := ih (fun other member => plain other (List.mem_cons_of_mem _ member)) left
        fun other member => kept other (List.mem_cons_of_mem _ member)
      rcases later with before | inside | empty
      · exact Or.inl before
      · exact Or.inr (Or.inl (List.mem_cons_of_mem _ inside))
      · exact Or.inr (Or.inr empty)
  | case7 path segment next rest other alone ih =>
      rw [walk, if_neg other, if_neg alone] at left
      have later := ih (fun other member => plain other (List.mem_cons_of_mem _ member)) left
        fun other member => kept other (List.mem_cons_of_mem _ member)
      rw [kept segment List.mem_cons_self] at later
      rcases later with before | inside | empty
      · rcases List.mem_append.mp before with old | here
        · exact Or.inl old
        · exact Or.inr (Or.inl (List.mem_singleton.mp here ▸ List.mem_cons_self))
      · exact Or.inr (Or.inl (List.mem_cons_of_mem _ inside))
      · exact Or.inr (Or.inr empty)

theorem cleaned_kept (text : List Char) (kept : ∀ char ∈ text, isTrimmed char = false ∧ isIgnored char = false) :
    cleaned text = text := by
  have edge : ∀ chars : List Char, (∀ char ∈ chars, char ∈ text) → chars.dropWhile isTrimmed = chars := by
    intro chars inside
    cases chars with
    | nil => rfl
    | cons char rest => exact List.dropWhile_cons_of_neg (by simp [(kept char (inside char List.mem_cons_self)).1])
  have whole : trimmed text = text := by
    rw [trimmed, edge text (fun char member => member), edge text.reverse (fun char member => List.mem_reverse.mp member),
      List.reverse_reverse]
  rw [cleaned, whole]
  refine List.filter_eq_self.mpr ?_
  intro char member
  rw [(kept char member).2]
  rfl

theorem split_names (text : List Char) (names : List (List Char)) (plain : ∀ char ∈ text, isSlash char = false)
    (others : ∀ name ∈ names, ∀ char ∈ name, isSlash char = false) :
    (text ++ rooted '/' names).splitOnP isSlash = text :: names := by
  induction names generalizing text with
  | nil => rw [rooted_nil, List.append_nil, List.splitOnP_eq_singleton plain]
  | cons name rest ih =>
      rw [rooted_cons, List.splitOnP_append_cons_of_forall_mem plain '/' (by decide),
        ih name (others name List.mem_cons_self) fun other member => others other (List.mem_cons_of_mem _ member)]

theorem rooted_chars (names : List (List Char)) (char : Char) (member : char ∈ rooted '/' names) :
    char = '/' ∨ ∃ name ∈ names, char ∈ name := by
  obtain ⟨name, inside, either⟩ := List.mem_flatMap.mp member
  exact (List.mem_cons.mp either).imp (fun same => same) fun written => ⟨name, inside, written⟩

-- What a client writes behind the root: names, and a query when there is one.
def reference (names : List (List Char)) (query : Option (List Char)) : List Char :=
  rooted '/' names ++ query.elim [] ('?' :: ·)

theorem resolve_reference (first : List Char) (others : List (List Char)) (query : Option (List Char)) (some_ : first ≠ [])
    (plain : ∀ name ∈ first :: others, ∀ char ∈ name, inert pathMarks char = true)
    (plainQuery : ∀ text ∈ query, ∀ char ∈ text, inert queryMarks char = true) :
    resolve (reference (first :: others) query) = some ⟨rooted '/' (walk [] (first :: others)), query⟩ := by
  have chars : ∀ char ∈ reference (first :: others) query,
      char = '/' ∨ char = '?' ∨ inert pathMarks char = true ∨ inert queryMarks char = true := by
    intro char member
    rcases List.mem_append.mp member with path | search
    · rcases rooted_chars _ char path with slash | ⟨name, inside, written⟩
      · exact Or.inl slash
      · exact Or.inr (Or.inr (Or.inl (plain name inside char written)))
    · cases query with
      | none => cases search
      | some text => exact Or.inr ((List.mem_cons.mp search).imp (fun same => same) fun inside => Or.inr (plainQuery text rfl char inside))
  have clean : cleaned (reference (first :: others) query) = reference (first :: others) query := by
    refine cleaned_kept _ ?_
    intro char member
    rcases chars char member with rfl | rfl | kept | kept
    · exact ⟨by decide, by decide⟩
    · exact ⟨by decide, by decide⟩
    · exact inert_clean _ char (by decide) kept
    · exact inert_clean _ char (by decide) kept
  have bare : (reference (first :: others) query).takeWhile (fun char => decide (char ≠ '#')) = reference (first :: others) query := by
    refine List.takeWhile_eq_self_iff.mpr ?_
    intro char member
    refine decide_eq_true ?_
    rcases chars char member with rfl | rfl | kept | kept
    · decide
    · decide
    · exact inert_other _ char '#' kept (by decide)
    · exact inert_other _ char '#' kept (by decide)
  have path : ∀ char ∈ rooted '/' (first :: others), decide (char ≠ '?') = true := by
    intro char member
    refine decide_eq_true ?_
    rcases rooted_chars _ char member with rfl | ⟨name, inside, written⟩
    · decide
    · exact inert_other _ char '?' (plain name inside char written) (by decide)
  have before : (reference (first :: others) query).takeWhile (fun char => decide (char ≠ '?')) = rooted '/' (first :: others) := by
    rw [reference, List.takeWhile_append_of_pos path]
    cases query with
    | none => exact List.append_nil _
    | some text => exact List.append_nil _
  have behind : queryOf (reference (first :: others) query) = query := by
    rw [queryOf, reference, List.dropWhile_append_of_pos path]
    cases query with
    | none => rfl
    | some text =>
        exact congrArg some (inert_encoded _ _ fun char member => inert_encodes _ char (plainQuery text rfl char member))
  have slashes : ∀ name ∈ first :: others, ∀ char ∈ name, isSlash char = false :=
    fun name inside char written => inert_slash _ char (plain name inside char written)
  have alone : ((first ++ rooted '/' others).head?.any isSlash) = false := by
    cases first with
    | nil => exact absurd rfl some_
    | cons char rest => exact slashes _ List.mem_cons_self char List.mem_cons_self
  simp only [resolve, clean, bare, before, behind, rooted_cons]
  rw [alone, split_names first others (slashes first List.mem_cons_self) fun name member => slashes name (List.mem_cons_of_mem _ member)]
  rfl

-- A segment of dots is decoded to as many dots.
theorem dots_decode (segment : List Char) (count : Nat) (dotted : dots segment = some count) :
    decodeUriComponent segment = some (List.replicate count '.') := by
  have letter : utf8Code.first [0x2E] = some '.' := by decide
  have low : ∀ rest, readLetter ('%' :: '2' :: 'e' :: rest) = some ('.', rest) := by
    intro rest
    have first : readEscape ('%' :: '2' :: 'e' :: rest) = some (0x2E, rest) := rfl
    have sequence : readEscapes 1 ('%' :: '2' :: 'e' :: rest) = some ([0x2E], rest) := rfl
    have alone : sequenceLength 0x2E = some 1 := rfl
    simp only [readLetter, first, sequence, alone, letter, Option.bind_eq_bind, Option.bind_some]
    rfl
  have high : ∀ rest, readLetter ('%' :: '2' :: 'E' :: rest) = some ('.', rest) := fun rest => read_letter '.' rest
  have all : ∀ fuel, segment.length ≤ fuel → decodeFrom fuel segment = some (List.replicate count '.') := by
    induction segment using dots.induct generalizing count with
    | case1 =>
        intro fuel _
        cases dotted
        cases fuel <;> rfl
    | case2 rest ih =>
        intro fuel enough
        obtain ⟨fewer, later, rfl⟩ := Option.map_eq_some_iff.mp dotted
        cases fuel with
        | zero => simp at enough
        | succ fuel =>
            rw [decodeFrom, if_neg (by decide), ih fewer later fuel (by simpa using enough)]
            rfl
    | case3 rest ih =>
        intro fuel enough
        obtain ⟨fewer, later, rfl⟩ := Option.map_eq_some_iff.mp dotted
        cases fuel with
        | zero => simp at enough
        | succ fuel =>
            rw [decodeFrom, if_pos rfl, low]
            change (decodeFrom fuel rest >>= _) = _
            rw [ih fewer later fuel (by simp at enough; omega)]
            rfl
    | case4 rest ih =>
        intro fuel enough
        obtain ⟨fewer, later, rfl⟩ := Option.map_eq_some_iff.mp dotted
        cases fuel with
        | zero => simp at enough
        | succ fuel =>
            rw [decodeFrom, if_pos rfl, high]
            change (decodeFrom fuel rest >>= _) = _
            rw [ih fewer later fuel (by simp at enough; omega)]
            rfl
    | case5 segment _ _ _ _ =>
        rw [dots] at dotted
        · cases dotted
        all_goals assumption
  exact all _ (Nat.le_refl _)

end Library.Url
