import Monetary.Json.Parser
import Monetary.Proofs.Json.Tokens

/-!
# Written values are read

A value is written as its tokens, and these are put together to the value again. Both steps are
followed for a value inside any other one: its text may be followed by whatever ends a token, and
its tokens are read on top of whatever frames are open. So a value inside an array or an object is
covered by the same statement as the array or the object itself.

Writable are the values whose strings are texts and whose numbers are numerals.
-/

namespace Monetary.JsonValue

open JsonToken (scan EndsToken IsNumeral)

/-- A value that can be written: every string in it is a text, and every number a numeral. -/
inductive IsWritable : JsonValue → Prop where
  | null : IsWritable .null
  | boolean (value : Bool) : IsWritable (.boolean value)
  | number {numeral : List Char} (h : IsNumeral numeral) : IsWritable (.number numeral)
  | string (text : String) : IsWritable (.ofText text)
  | array {items : List JsonValue} (h : ∀ item ∈ items, IsWritable item) :
      IsWritable (.array items)
  | object {members : List (List Nat × JsonValue)}
      (hkeys : ∀ member ∈ members, ∃ key, member.1 = points key)
      (h : ∀ member ∈ members, IsWritable member.2) : IsWritable (.object members)

mutual

/-- The tokens of a value. -/
def tokens : JsonValue → List JsonToken
  | .null => [.null]
  | .boolean value => [.boolean value]
  | .number numeral => [.number numeral]
  | .string points => [.string points]
  | .array items => .beginArray :: itemTokens items ++ [.endArray]
  | .object members => .beginObject :: memberTokens members ++ [.endObject]

/-- The tokens of the items of an array. -/
def itemTokens : List JsonValue → List JsonToken
  | [] => []
  | [item] => tokens item
  | item :: rest => tokens item ++ .comma :: itemTokens rest

/-- The tokens of the members of an object. -/
def memberTokens : List (List Nat × JsonValue) → List JsonToken
  | [] => []
  | [(key, value)] => .string key :: .colon :: tokens value
  | (key, value) :: rest => .string key :: .colon :: tokens value ++ .comma :: memberTokens rest

end

/-- Two items in a row are divided by a comma. -/
theorem printItems_cons_cons (item second : JsonValue) (items : List JsonValue) :
    printItems (item :: second :: items) = print item ++ ',' :: printItems (second :: items) :=
  rfl

/-- Two members in a row are divided by a comma. -/
theorem printMembers_cons_cons (key : List Nat) (value : JsonValue)
    (second : List Nat × JsonValue) (members : List (List Nat × JsonValue)) :
    printMembers ((key, value) :: second :: members) =
      printString key ++ ':' :: print value ++ ',' :: printMembers (second :: members) :=
  rfl

/-- The tokens of two items in a row are divided by a comma. -/
theorem itemTokens_cons_cons (item second : JsonValue) (items : List JsonValue) :
    itemTokens (item :: second :: items) = tokens item ++ .comma :: itemTokens (second :: items) :=
  rfl

/-- The tokens of two members in a row are divided by a comma. -/
theorem memberTokens_cons_cons (key : List Nat) (value : JsonValue)
    (second : List Nat × JsonValue) (members : List (List Nat × JsonValue)) :
    memberTokens ((key, value) :: second :: members) =
      .string key :: .colon :: tokens value ++ .comma :: memberTokens (second :: members) :=
  rfl

section Scan

variable {value : JsonValue} {rest : List Char}

/-- The text of a value is cut into its tokens, whatever follows it. -/
def ScansToTokens (value : JsonValue) : Prop :=
  ∀ rest, EndsToken rest →
    scan .between (value.print ++ rest) = (scan .between rest).map (value.tokens ++ ·)

/-- A mark ends every token. -/
theorem endsToken_cons {c : Char} (h : JsonToken.isNumeralChar c = false ∧
    JsonToken.isLowerLetter c = false) (rest : List Char) : EndsToken (c :: rest) := by
  intro d hd
  cases hd
  exact h

/-- A comma between two parts is a token of its own. -/
theorem scan_comma (rest : List Char) :
    scan .between (',' :: rest) = (scan .between rest).map (.comma :: ·) :=
  JsonToken.scan_cons_token _ rfl

/-- A colon between two parts is a token of its own. -/
theorem scan_colon (rest : List Char) :
    scan .between (':' :: rest) = (scan .between rest).map (.colon :: ·) :=
  JsonToken.scan_cons_token _ rfl

/-- The items of an array are cut into their tokens. -/
theorem scan_printItems {items : List JsonValue} (h : ∀ item ∈ items, ScansToTokens item)
    (hrest : EndsToken rest) : scan .between (printItems items ++ rest) =
      (scan .between rest).map (itemTokens items ++ ·) := by
  induction items with
  | nil =>
    rw [printItems, itemTokens]
    simp
  | cons item items ih =>
    obtain ⟨hitem, hitems⟩ := List.forall_mem_cons.mp h
    cases items with
    | nil =>
      rw [printItems, itemTokens]
      exact hitem rest hrest
    | cons second items =>
      rw [printItems_cons_cons, itemTokens_cons_cons, List.append_assoc, List.cons_append,
        hitem _ (endsToken_cons (by decide) _), scan_comma, ih hitems]
      simp [Option.map_map, Function.comp_def]

/-- The members of an object are cut into their tokens. -/
theorem scan_printMembers {members : List (List Nat × JsonValue)}
    (hkeys : ∀ member ∈ members, ∃ key, member.1 = points key)
    (h : ∀ member ∈ members, ScansToTokens member.2) (hrest : EndsToken rest) :
    scan .between (printMembers members ++ rest) =
      (scan .between rest).map (memberTokens members ++ ·) := by
  induction members with
  | nil =>
    rw [printMembers, memberTokens]
    simp
  | cons member members ih =>
    obtain ⟨points, value⟩ := member
    obtain ⟨⟨key, hkey⟩, hrestKeys⟩ := List.forall_mem_cons.mp hkeys
    obtain rfl : points = JsonValue.points key := hkey
    obtain ⟨hvalue, hmembers⟩ := List.forall_mem_cons.mp h
    cases members with
    | nil =>
      rw [printMembers, memberTokens, List.append_assoc, JsonToken.scan_printString,
        List.cons_append, scan_colon, hvalue rest hrest]
      simp [Option.map_map, Function.comp_def]
    | cons second members =>
      rw [printMembers_cons_cons, memberTokens_cons_cons, List.append_assoc, List.append_assoc,
        JsonToken.scan_printString, List.cons_append, scan_colon, List.cons_append,
        hvalue _ (endsToken_cons (by decide) _), scan_comma, ih hrestKeys hmembers]
      simp [Option.map_map, Function.comp_def]

/-- A writable value is cut into its tokens. -/
theorem IsWritable.scansToTokens (h : value.IsWritable) : ScansToTokens value := by
  induction h with
  | null =>
    intro rest hrest
    exact JsonToken.scan_word rfl rfl rfl hrest
  | boolean value =>
    intro rest hrest
    cases value with
    | true => exact JsonToken.scan_word rfl rfl rfl hrest
    | false => exact JsonToken.scan_word rfl rfl rfl hrest
  | number hnumeral =>
    intro rest hrest
    rw [print, tokens, JsonToken.scan_numeral hnumeral hrest]
    rfl
  | string text =>
    intro rest hrest
    rw [ofText, print, tokens, JsonToken.scan_printString]
    rfl
  | array h ih =>
    intro rest hrest
    rw [print, tokens, List.cons_append, List.cons_append, List.append_assoc,
      List.singleton_append, JsonToken.scan_cons_token .beginArray rfl,
      scan_printItems ih (endsToken_cons (by decide) _),
      JsonToken.scan_cons_token .endArray rfl]
    simp [Option.map_map, Function.comp_def]
  | object hkeys h ih =>
    intro rest hrest
    rw [print, tokens, List.cons_append, List.cons_append, List.append_assoc,
      List.singleton_append, JsonToken.scan_cons_token .beginObject rfl,
      scan_printMembers hkeys ih (endsToken_cons (by decide) _),
      JsonToken.scan_cons_token .endObject rfl]
    simp [Option.map_map, Function.comp_def]

end Scan

section Parse

variable {value : JsonValue}

/-- The tokens of a value are put together to the value, on top of whatever frames are open. -/
def ReadsBack (value : JsonValue) : Prop :=
  ∀ stack rest, (value.tokens ++ rest).foldlM step (.value stack) =
    place value stack >>= fun state => rest.foldlM step state

/-- The tokens of the items of an array do not start with its end. -/
theorem exists_itemTokens_eq_cons (item : JsonValue) (items : List JsonValue) :
    ∃ token tail, itemTokens (item :: items) = token :: tail ∧ token ≠ .endArray := by
  have hitem : ∃ token tail, item.tokens = token :: tail ∧ token ≠ .endArray := by
    cases item <;> exact ⟨_, _, rfl, by simp⟩
  obtain ⟨token, tail, htokens, hne⟩ := hitem
  cases items with
  | nil => exact ⟨token, tail, htokens, hne⟩
  | cons second items =>
    rw [itemTokens_cons_cons, htokens]
    exact ⟨token, _, rfl, hne⟩

/-- The first item of an array is read like every other value. -/
theorem step_firstItem {token : JsonToken} (h : token ≠ .endArray) (held : List JsonValue)
    (stack : List Frame) : step (.firstItem (.array held :: stack)) token =
      step (.value (.array held :: stack)) token := by
  cases token with
  | endArray => exact absurd rfl h
  | _ => rfl

/-- The first key of an object is read like every other key. -/
theorem foldlM_memberTokens_firstKey (member : List Nat × JsonValue)
    (members held : List (List Nat × JsonValue)) (stack : List Frame) (tail : List JsonToken) :
    (memberTokens (member :: members) ++ tail).foldlM step (.firstKey (.object held :: stack)) =
      (memberTokens (member :: members) ++ tail).foldlM step (.key (.object held :: stack)) := by
  obtain ⟨key, value⟩ := member
  cases members <;> rfl

/-- The items of an array are put together after those that are there, up to the end of the
array. -/
theorem foldlM_itemTokens {item : JsonValue} {items : List JsonValue} (held : List JsonValue)
    (stack : List Frame) (rest : List JsonToken) (h : ∀ next ∈ item :: items, ReadsBack next) :
    (itemTokens (item :: items) ++ .endArray :: rest).foldlM step
        (.value (.array held :: stack)) =
      place (.array (held.reverse ++ item :: items)) stack >>= fun state =>
        rest.foldlM step state := by
  -- The items before the ones that are left are held by the frame, so they vary along the way.
  induction items generalizing item held with
  | nil =>
    rw [itemTokens, h item List.mem_cons_self]
    simp [place, step]
  | cons second items ih =>
    obtain ⟨hitem, hitems⟩ := List.forall_mem_cons.mp h
    rw [itemTokens_cons_cons, List.append_assoc, hitem]
    simp only [place, List.cons_append, List.foldlM_cons, step, Option.bind_eq_bind,
      Option.bind_some]
    rw [ih (item :: held) hitems, List.reverse_cons, List.append_assoc]
    rfl

/-- The members of an object are put together after those that are there, up to the end of the
object. -/
theorem foldlM_memberTokens {member : List Nat × JsonValue}
    {members : List (List Nat × JsonValue)} (held : List (List Nat × JsonValue))
    (stack : List Frame) (rest : List JsonToken)
    (h : ∀ next ∈ member :: members, ReadsBack next.2) :
    (memberTokens (member :: members) ++ .endObject :: rest).foldlM step
        (.key (.object held :: stack)) =
      place (.object (held.reverse ++ member :: members)) stack >>= fun state =>
        rest.foldlM step state := by
  induction members generalizing member held with
  | nil =>
    obtain ⟨key, value⟩ := member
    have hvalue := h (key, value) List.mem_cons_self
    simp only [memberTokens, List.cons_append, List.foldlM_cons, step, Option.bind_eq_bind,
      Option.bind_some]
    rw [hvalue]
    simp [place, step]
  | cons second members ih =>
    obtain ⟨key, value⟩ := member
    obtain ⟨hvalue, hmembers⟩ := List.forall_mem_cons.mp h
    simp only [memberTokens_cons_cons, List.cons_append, List.append_assoc, List.foldlM_cons, step,
      Option.bind_eq_bind, Option.bind_some]
    rw [hvalue]
    simp only [place, List.foldlM_cons, step, Option.bind_eq_bind, Option.bind_some]
    rw [ih ((key, value) :: held) hmembers, List.reverse_cons, List.append_assoc]
    rfl

/-- The tokens of a writable value are put together to the value. -/
theorem IsWritable.readsBack (h : value.IsWritable) : ReadsBack value := by
  induction h with
  | null => exact fun _ _ => rfl
  | boolean value => exact fun _ _ => rfl
  | number hnumeral => exact fun _ _ => rfl
  | string text => exact fun _ _ => rfl
  | @array items h ih =>
    intro stack rest
    rw [tokens, List.cons_append, List.cons_append, List.append_assoc, List.singleton_append]
    cases items with
    | nil => rfl
    | cons item items =>
      -- The first token does not end the array, so that the first item is read like a later one.
      obtain ⟨token, tail, htokens, hne⟩ := exists_itemTokens_eq_cons item items
      have hitems := foldlM_itemTokens [] stack rest ih
      rw [htokens, List.cons_append, List.foldlM_cons] at hitems
      rw [List.foldlM_cons, htokens, List.cons_append]
      change List.foldlM step (.firstItem (.array [] :: stack)) _ = _
      rw [List.foldlM_cons, step_firstItem hne, hitems]
      rfl
  | @object members hkeys h ih =>
    intro stack rest
    rw [tokens, List.cons_append, List.cons_append, List.append_assoc, List.singleton_append]
    cases members with
    | nil => rfl
    | cons member members =>
      have hmembers := foldlM_memberTokens [] stack rest ih
      rw [List.foldlM_cons]
      change List.foldlM step (.firstKey (.object [] :: stack)) _ = _
      rw [foldlM_memberTokens_firstKey, hmembers]
      rfl

/-- A writable value is read from the text in which it is written. -/
theorem IsWritable.parse?_print (h : value.IsWritable) :
    parse? (String.ofList value.print) = some value := by
  have hend : EndsToken [] := by
    intro c hc
    cases hc
  have hscan := h.scansToTokens [] hend
  have hread := h.readsBack [] []
  rw [List.append_nil] at hscan hread
  rw [parse?, String.toList_ofList, hscan]
  simp [scan, JsonToken.finish, ofTokens?, hread, place]

end Parse

end Monetary.JsonValue
