import Jukebox.Assoc
import Jukebox.Token.Resolve

/-!
Sets of tokens in the order in which they were first named. An index has the place of each text
(`TokenSet.get?_index`), and no text has two tokens. A token is found under its own text or, failing
that, under the canonical text of what is asked for. `TokenSet.ofTexts` reads a whole collection of
texts and reports everything that is wrong with it.
-/

set_option autoImplicit false
set_option relaxedAutoImplicit false

namespace Jukebox

/-- Tokens by text, in first-seen order, with an index of their places. -/
structure TokenSet where
  tokens : List NamedToken
  index : Assoc String Nat
  index_eq : index = (tokens.map NamedToken.text).zipIdx
  nodup : (tokens.map NamedToken.text).Nodup
  deriving DecidableEq

namespace TokenSet

def empty : TokenSet := ⟨[], [], rfl, .nil⟩

def texts (s : TokenSet) : List String := s.tokens.map NamedToken.text

def size (s : TokenSet) : Nat := s.tokens.length

/-- The token under exactly this text. -/
def find? (s : TokenSet) (text : String) : Option NamedToken :=
  s.tokens.find? fun t ↦ t.text == text

/-- The token in the place of this text or, if it has none, of its canonical text. -/
def get? (s : TokenSet) (text : String) : Option NamedToken :=
  (s.index.get? text <|> s.index.get? (Token.canonical text)).bind fun i ↦ s.tokens[i]?

/-- Whether a text has a place. -/
def contains (s : TokenSet) (text : String) : Bool := (s.index.get? text).isSome

/-- The index has each text of the set, with its place, and nothing else. -/
theorem get?_index {s : TokenSet} {text : String} {i : Nat} :
    s.index.get? text = some i ↔ s.texts[i]? = some text := by
  rw [s.index_eq]
  exact Assoc.get?_zipIdx s.nodup

theorem contains_iff {s : TokenSet} {text : String} : s.contains text = true ↔ text ∈ s.texts := by
  rw [contains, Option.isSome_iff_exists, List.mem_iff_getElem?]
  exact exists_congr fun _ ↦ get?_index

theorem index_concat {s : TokenSet} {t : NamedToken} (h : ¬ s.contains t.text = true) :
    s.index.set t.text s.tokens.length = ((s.tokens ++ [t]).map NamedToken.text).zipIdx := by
  rw [contains, Bool.not_eq_true, Option.isSome_eq_false_iff, Option.isNone_iff_eq_none] at h
  rw [Assoc.set_of_get?_eq_none h, List.map_append, List.zipIdx_append, List.length_map,
    Nat.zero_add, ← s.index_eq]
  rfl

theorem nodup_concat {s : TokenSet} {t : NamedToken} (h : ¬ s.contains t.text = true) :
    ((s.tokens ++ [t]).map NamedToken.text).Nodup := by
  rw [contains_iff] at h
  rw [List.map_append, List.nodup_append]
  refine ⟨s.nodup, List.pairwise_singleton _ _, fun text htext other hother heq ↦ h ?_⟩
  rwa [← List.mem_singleton.1 hother, ← heq]

/-- Adds a token behind the others; a text that has a place keeps its token. -/
def insert (s : TokenSet) (t : NamedToken) : TokenSet :=
  if h : s.contains t.text then s
  else ⟨s.tokens ++ [t], s.index.set t.text s.tokens.length, index_concat h, nodup_concat h⟩

/-- Adds the tokens of another set. -/
def insertAll (s other : TokenSet) : TokenSet := other.tokens.foldl insert s

/-- The tokens read so far, the texts found to be wrong, and what is wrong with them. -/
structure Reading where
  tokens : TokenSet
  rejected : List String
  errors : List TokenError

/-- Reads one more text, unless its canonical text has been read before. -/
def Reading.step (r : Reference) (acc : Reading) (text : String) : Reading :=
  let name := Token.canonical text
  if acc.tokens.contains name || acc.rejected.contains name then acc
  else match NamedToken.ofText name r with
    | .ok token => { acc with tokens := acc.tokens.insert token }
    | .error e => { acc with rejected := acc.rejected ++ [name], errors := acc.errors ++ [e] }

/-- The set of the tokens that some texts stand for, or all errors among them. -/
def ofTexts (texts : List String) (r : Reference) : Except (List TokenError) TokenSet :=
  let acc := texts.foldl (Reading.step r) ⟨empty, [], []⟩
  if acc.errors = [] then .ok acc.tokens else .error acc.errors

@[simp] theorem texts_empty : empty.texts = [] := rfl

theorem tokens_insert (s : TokenSet) (t : NamedToken) :
    (s.insert t).tokens = if t.text ∈ s.texts then s.tokens else s.tokens ++ [t] := by
  unfold insert
  split <;> rename_i h <;> rw [contains_iff] at h
  · rw [if_pos h]
  · rw [if_neg h]

theorem texts_insert (s : TokenSet) (t : NamedToken) :
    (s.insert t).texts = if t.text ∈ s.texts then s.texts else s.texts ++ [t.text] := by
  rw [texts, tokens_insert]
  split
  · rfl
  · exact List.map_append

end TokenSet

end Jukebox
