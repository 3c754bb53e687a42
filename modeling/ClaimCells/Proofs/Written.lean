import ClaimCells.Proofs.Texts

/-!
# Written values

A text that writes a value is read back as that value. Numbers are left out: how a number is written
is another matter.

What is read of a text does not depend on the bound on the calls: two for each character are enough
(`Reads.enough`). So a value is read where it stands (`Stands.reads`), and it is enough to say what
stands in a text that was written.

Main results: `Reads.enough`, `Unnumbered.ofText_compact`.
-/

namespace ClaimCells.Json

open Cursor (skipBlanks nextElement nextMember stringTail)

variable {cs rest : List Char} {v : Json} {vs done : List Json} {first : Bool} {n : Nat}

/-! ## The bound on calls -/

/-- The value is read by any number of calls from two for each character on. -/
def Enough (cs : List Char) (v : Json) (rest : List Char) : Prop :=
  ∀ n, 2 * cs.length + 2 ≤ n → readValue n cs = .ok (v, rest)

theorem Enough.reads (h : Enough cs v rest) : Reads cs v rest :=
  ⟨_, h _ le_rfl⟩

theorem Elements.enough (h : Elements Enough first cs vs rest) (hn : 2 * cs.length + 3 ≤ n) :
    readElements n first done cs = .ok (.array (done.reverse ++ vs), rest) := by
  induction h generalizing n done with
  | close hc =>
    obtain ⟨n, rfl⟩ : ∃ k, n = k + 1 := ⟨n - 1, by omega⟩
    rw [readElements, hc, List.append_nil]
  | more hm hv hvs ih =>
    have hstart := Cursor.nextElement_length hm
    have hlt := hv.reads.length
    simp only [Cursor.Next.left] at hstart
    obtain ⟨n, rfl⟩ : ∃ k, n = k + 1 := ⟨n - 1, by omega⟩
    simp only [readElements, hm, hv n (by omega)]
    rw [ih (by omega), List.reverse_cons, List.append_assoc, List.singleton_append]

theorem Members.enough {ms done : List (String × Json)} (h : Members Enough first cs ms rest)
    (hn : 2 * cs.length + 3 ≤ n) :
    readMembers n first done cs = .ok (.object (done.reverse ++ ms), rest) := by
  induction h generalizing n done with
  | close hc =>
    obtain ⟨n, rfl⟩ : ∃ k, n = k + 1 := ⟨n - 1, by omega⟩
    rw [readMembers, hc, List.append_nil]
  | more hm hk hcolon hv hms ih =>
    have hstart := Cursor.nextMember_length hm
    have hkey := Cursor.stringTail_length hk
    have hafter := Cursor.colon_length hcolon
    have hlt := hv.reads.length
    simp only [Cursor.Next.left] at hstart
    obtain ⟨n, rfl⟩ : ∃ k, n = k + 1 := ⟨n - 1, by omega⟩
    simp only [readMembers, hm, hk, hcolon, hv n (by omega)]
    rw [ih (by omega), List.reverse_cons, List.append_assoc, List.singleton_append]

/-- No other value begins like a number. -/
theorem readValue_number {c : Char} {t : List Char} {m : Number} (hc : skipBlanks cs = c :: t)
    (h : (c = '-' || c.isDigit) = true) (hread : Cursor.number (c :: t) = .ok (m, rest)) :
    readValue (n + 1) cs = .ok (.number m, rest) := by
  have hnone : ['[', '{', 'n', 't', 'f', '"'].all (fun d => !(d = '-' || d.isDigit)) = true := rfl
  have hne : ∀ d ∈ ['[', '{', 'n', 't', 'f', '"'], c ≠ d := by
    rintro d hd rfl
    simpa [h] using List.all_eq_true.1 hnone c hd
  simp only [List.forall_mem_cons] at hne
  have hscalar : readValue (n + 1) cs = readScalar (c :: t) := by simp [readValue, hc, hne]
  rw [hscalar]
  simp [readScalar, h, hne, hread, Except.map]

theorem Stands.enough (h : Stands Enough cs v rest) : Enough cs v rest := by
  intro n hn
  obtain ⟨n, rfl⟩ : ∃ k, n = k + 1 := ⟨n - 1, by omega⟩
  cases h with
  | null hc hw | true hc hw | false hc hw =>
    rw [readValue, hc]
    show (Cursor.word _ _).map _ = _
    rw [hw]
    rfl
  | text hc hs =>
    rw [readValue, hc]
    show (Cursor.string _).map _ = _
    rw [hs]
    rfl
  | number hc hnumeric hread =>
    exact readValue_number hc hnumeric hread
  | array hc hvs =>
    have hlt := Cursor.length_of_skipBlanks hc
    rw [readValue, hc]
    exact hvs.enough (by omega)
  | object hc hms =>
    have hlt := Cursor.length_of_skipBlanks hc
    rw [readValue, hc]
    exact hms.enough (by omega)

/-- What can be read is read within two calls for each character. -/
theorem Reads.enough (h : Reads cs v rest) : Enough cs v rest := by
  obtain ⟨n, hn⟩ := h
  induction n using Nat.strong_induction_on generalizing cs v rest with
  | _ n ih =>
    refine ((stands_of_read hn).imp fun _ _ _ hw => ?_).enough
    obtain ⟨m, hm, hread⟩ := hw
    exact ih m hm hread

/-- A value that stands in a text is read. -/
theorem Stands.reads (h : Stands Reads cs v rest) : Reads cs v rest :=
  (h.imp fun _ _ _ hr => hr.enough).enough.reads

/-! ## Strings -/

/-- Of the four digits of a character below the blank, two matter. -/
theorem hexDigits_low : ∀ n < 32,
    List.replicate (4 - (Text.hexDigits n).length) '0' ++ Text.hexDigits n =
        ['0', '0', Nat.digitChar (n / 16), Nat.digitChar (n % 16)] ∧
      Cursor.hexValue? (Nat.digitChar (n / 16)) = some (n / 16) ∧
      Cursor.hexValue? (Nat.digitChar (n % 16)) = some (n % 16) := by
  decide

theorem hex4_low {n : Nat} (hn : n < 32) (cs : List Char) :
    ∃ hlt, Cursor.hex4 ('0' :: '0' :: Nat.digitChar (n / 16) :: Nat.digitChar (n % 16) :: cs) =
      .ok (n, ⟨cs, hlt⟩) := by
  obtain ⟨-, hhigh, hlow⟩ := hexDigits_low n hn
  have hzero : Cursor.hexValue? '0' = some 0 := by decide
  have hvalue : ((0 * 16 + 0) * 16 + n / 16) * 16 + n % 16 = n := by omega
  refine ⟨by simp only [List.length_cons]; omega, ?_⟩
  simp only [Cursor.hex4, hzero, hhigh, hlow, hvalue]

theorem escape_u_low {c : Char} (hc : c < ' ') (cs : List Char) :
    ∃ hlt, Cursor.escape true ('u' :: '0' :: '0' :: Nat.digitChar (c.toNat / 16) ::
      Nat.digitChar (c.toNat % 16) :: cs) = .ok (c, ⟨cs, hlt⟩) := by
  have hn : c.toNat < 32 := hc
  have hsmall : c.toNat < 0xD800 := hn.trans (by decide)
  obtain ⟨hlt, hhex⟩ := hex4_low hn cs
  refine ⟨by simp only [List.length_cons]; omega, ?_⟩
  simp [Cursor.escape, hhex, hsmall]

/-- A character that was written is read back. -/
theorem stringTail_writeChar (c : Char) (done cs : List Char) :
    stringTail true done (writeChar c ++ cs) = stringTail true (c :: done) cs := by
  unfold writeChar
  split_ifs with hquote hslash hn hr ht hb hf hlow
  · subst hquote
    exact Cursor.stringTail_escape done rfl
  · subst hslash
    exact Cursor.stringTail_escape done rfl
  · subst hn
    exact Cursor.stringTail_escape done rfl
  · subst hr
    exact Cursor.stringTail_escape done rfl
  · subst ht
    exact Cursor.stringTail_escape done rfl
  · subst hb
    exact Cursor.stringTail_escape done rfl
  · subst hf
    exact Cursor.stringTail_escape done rfl
  · obtain ⟨hdigits, -⟩ := hexDigits_low c.toNat hlow
    obtain ⟨hlt, hescape⟩ := escape_u_low hlow cs
    dsimp only
    rw [List.append_assoc ['\\', 'u'], hdigits]
    exact Cursor.stringTail_escape done hescape
  · rw [List.singleton_append, stringTail, if_neg hlow]
    · exact hquote
    · exact hslash

theorem stringTail_written (s : List Char) (done rest : List Char) :
    stringTail true done (s.flatMap writeChar ++ '"' :: rest) =
      .ok (String.ofList (done.reverse ++ s), rest) := by
  induction s generalizing done with
  | nil => rw [List.flatMap_nil, List.nil_append, stringTail, List.append_nil]
  | cons c s ih =>
    rw [List.flatMap_cons, List.append_assoc, stringTail_writeChar, ih, List.reverse_cons,
      List.append_assoc, List.singleton_append]

/-- A string that was written is read back. -/
theorem string_written (s : String) (rest : List Char) :
    Cursor.string (s.toList.flatMap writeChar ++ '"' :: rest) = .ok (s, rest) := by
  rw [Cursor.string, stringTail_written, List.reverse_nil, List.nil_append, String.ofList_toList]

theorem toList_writeText (s : String) :
    (writeText s).toList = '"' :: (s.toList.flatMap writeChar ++ ['"']) := by
  rw [writeText, String.toList_ofList]
  rfl

/-! ## Values -/

/-- There is no number in the value. -/
inductive Unnumbered : Json → Prop
  | null : Unnumbered .null
  | bool (b : Bool) : Unnumbered (.bool b)
  | text (s : String) : Unnumbered (.text s)
  | array {vs : List Json} (h : ∀ v ∈ vs, Unnumbered v) : Unnumbered (.array vs)
  | object {ms : List (String × Json)} (h : ∀ m ∈ ms, Unnumbered m.2) : Unnumbered (.object ms)

/-- What is between brackets, when every item after the first has a comma before it. -/
theorem toList_intercalate_comma (t : String) (ts : List String) :
    (",".intercalate (t :: ts)).toList = t.toList ++ ts.flatMap (',' :: ·.toList) := by
  induction ts generalizing t with
  | nil => simp
  | cons t' ts ih =>
    rw [String.intercalate_cons_cons, String.toList_append, String.toList_append, ih,
      List.flatMap_cons]
    simp

theorem compactItems_eq_map (vs : List Json) : compactItems vs = vs.map compact := by
  induction vs with
  | nil => rfl
  | cons v vs ih => rw [compactItems, ih, List.map_cons]

theorem compactMembers_eq_map (ms : List (String × Json)) :
    compactMembers ms = ms.map fun m => writeText m.1 ++ ":" ++ m.2.compact := by
  induction ms with
  | nil => rfl
  | cons m ms ih => rw [compactMembers, ih, List.map_cons]

/-- The text of a value begins with the value. -/
theorem Unnumbered.head (h : v.Unnumbered) :
    ∃ c t, v.compact.toList = c :: t ∧ Cursor.isBlank c = false ∧ c ≠ ']' := by
  cases h with
  | null => exact ⟨'n', _, rfl, by decide, by decide⟩
  | bool b =>
    cases b with
    | false => exact ⟨'f', _, rfl, by decide, by decide⟩
    | true => exact ⟨'t', _, rfl, by decide, by decide⟩
  | text s => exact ⟨'"', _, toList_writeText s, by decide, by decide⟩
  | array h =>
    rw [compact, String.toList_append, String.toList_append]
    exact ⟨'[', _, rfl, by decide, by decide⟩
  | object h =>
    rw [compact, String.toList_append, String.toList_append]
    exact ⟨'{', _, rfl, by decide, by decide⟩

/-- The next element begins with its value, behind the comma if it is not the first. -/
theorem Unnumbered.nextElement (h : v.Unnumbered) (cs : List Char) :
    nextElement true (v.compact.toList ++ cs) = .ok (.more (v.compact.toList ++ cs)) ∧
      nextElement false (',' :: (v.compact.toList ++ cs)) =
        .ok (.more (v.compact.toList ++ cs)) := by
  obtain ⟨c, t, hhead, hblank, hclose⟩ := h.head
  have hskip : skipBlanks (c :: (t ++ cs)) = c :: (t ++ cs) := by simp [skipBlanks, hblank]
  have hcomma : skipBlanks (',' :: c :: (t ++ cs)) = ',' :: c :: (t ++ cs) := rfl
  rw [hhead, List.cons_append]
  constructor
  · simp [Cursor.nextElement, hskip]
  · simp [Cursor.nextElement, hskip, hcomma, hclose]

/-- The elements after the first, each with a comma before it, stand before the bracket. -/
theorem elements_of_written
    (h : ∀ v ∈ vs, v.Unnumbered ∧ ∀ rest, Reads (v.compact.toList ++ rest) v rest) :
    Elements Reads false (vs.flatMap (',' :: ·.compact.toList) ++ ']' :: rest) vs rest := by
  induction vs with
  | nil => exact .close rfl
  | cons v vs ih =>
    obtain ⟨hv, hread⟩ := h v List.mem_cons_self
    rw [List.flatMap_cons, List.append_assoc, List.cons_append]
    exact .more (hv.nextElement _).2 (hread _) (ih fun v hv => h v (.tail _ hv))

/-- The members after the first, each with a comma before it, stand before the brace. -/
theorem members_of_written {ms : List (String × Json)}
    (h : ∀ m ∈ ms, ∀ rest, Reads (m.2.compact.toList ++ rest) m.2 rest) :
    Members Reads false
      (ms.flatMap (fun m => ',' :: (writeText m.1 ++ ":" ++ m.2.compact).toList) ++ '}' :: rest)
      ms rest := by
  induction ms with
  | nil => exact .close rfl
  | cons m ms ih =>
    have hread := h m List.mem_cons_self
    rw [List.flatMap_cons, List.append_assoc, List.cons_append, String.toList_append,
      String.toList_append, toList_writeText]
    simp only [List.cons_append, List.append_assoc]
    refine .more rfl (string_written m.1 _) rfl (hread _) (ih fun m hm => h m (.tail _ hm))

/-- A value without numbers is read where it was written, whatever comes after it. -/
theorem Unnumbered.reads (h : v.Unnumbered) (rest : List Char) :
    Reads (v.compact.toList ++ rest) v rest := by
  apply Stands.reads
  induction h generalizing rest with
  | null => exact .null rfl rfl
  | bool b =>
    cases b with
    | false => exact .false rfl rfl
    | true => exact .true rfl rfl
  | text s =>
    rw [compact, toList_writeText, List.cons_append, List.append_assoc]
    exact .text rfl (string_written s rest)
  | @array vs h ih =>
    have hreads : ∀ v ∈ vs, v.Unnumbered ∧ ∀ rest, Reads (v.compact.toList ++ rest) v rest :=
      fun v hv => ⟨h v hv, fun rest => (ih v hv rest).reads⟩
    rw [compact, String.toList_append, String.toList_append, List.append_assoc, List.append_assoc]
    refine .array rfl ?_
    cases vs with
    | nil => exact .close rfl
    | cons v vs =>
      obtain ⟨hv, hread⟩ := hreads v List.mem_cons_self
      rw [compactItems_eq_map, List.map_cons, toList_intercalate_comma, List.flatMap_map,
        List.append_assoc]
      exact .more (hv.nextElement _).1 (hread _)
        (elements_of_written fun v hv => hreads v (.tail _ hv))
  | @object ms h ih =>
    rw [compact, String.toList_append, String.toList_append, List.append_assoc, List.append_assoc]
    refine .object rfl ?_
    cases ms with
    | nil => exact .close rfl
    | cons m ms =>
      have hread := ih m List.mem_cons_self
      rw [compactMembers_eq_map, List.map_cons, toList_intercalate_comma, List.flatMap_map,
        String.toList_append, String.toList_append, toList_writeText]
      simp only [List.cons_append, List.append_assoc]
      exact .more rfl (string_written m.1 _) rfl (hread _).reads
        (members_of_written fun m hm rest => (ih m (.tail _ hm) rest).reads)

/-- **A value without numbers is read back from the text that writes it.** -/
theorem Unnumbered.ofText_compact (h : v.Unnumbered) : ofText v.compact = .ok v := by
  have hread := (h.reads []).enough _ le_rfl
  rw [List.append_nil] at hread
  rw [ofText]
  simp only [hread]
  rfl

end ClaimCells.Json
