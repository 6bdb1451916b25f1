import Iridium.Modem.Casts

/-!
# Replies of the expected shape

A reply is the echo of the command or an empty line, the line that answers it, and what follows up
to the `OK`. Whatever the chunks, a status function takes that line (`Answers.ask`,
`Answers.getSignalQuality`).

The numbers of a line are found where they have been printed: what `decodeFields` makes of a
`render`ed line is the conversion of each numeral in turn (`decodeFields_render`).
-/

namespace Iridium

open Serial Text Decimal ReadM

/-- An echo: one line, that does not look like the end of a reply or like an error. -/
structure Echo (echo : List UInt8) : Prop where
  oneLine : lf ∉ echo
  notOk : ¬ ascii "OK" <:+ echo
  notError : ¬ ascii "ERROR" <:+: echo

theorem echo_nil : Echo [] where
  oneLine := by simp
  notOk := by decide
  notError := by decide

/-- A line that answers a command. -/
structure Answer (line : List UInt8) : Prop where
  oneLine : lf ∉ line
  notOk : ¬ ascii "OK" <:+ line

/-- The modem takes what it is sent, and this is its reply. -/
structure Answers (p : Port) (echo line : List UInt8) : Prop where
  accepts : p.Accepts
  stream : ∃ tail, p.stream = echo ++ ascii "\r\n" ++ line ++ ascii "\r\n" ++ tail
    ∧ ascii "OK\r\n" <:+: tail

/-! ## Lines -/

theorem lf_notMem_concat {l : List UInt8} (h : lf ∉ l) : lf ∉ l ++ [cr] := by
  intro hmem
  rcases List.mem_append.mp hmem with hl | hcr
  · exact h hl
  · exact absurd hcr (by decide)

/-- A line that does not end in `OK` does not end the reply. -/
theorem not_suffix_concat {l : List UInt8} (h : ¬ ascii "OK" <:+ l) :
    ¬ ascii "OK\r" <:+ l ++ [cr] := by
  rintro ⟨front, hfront⟩
  have hsplit : (front ++ ascii "OK") ++ [cr] = l ++ [cr] := by
    rw [← hfront, List.append_assoc]
    rfl
  exact h ⟨front, List.append_cancel_right hsplit⟩

theorem not_infix_concat {l : List UInt8} (h : ¬ ascii "ERROR" <:+: l) :
    ¬ ascii "ERROR" <:+: l ++ [cr] := by
  intro hin
  rcases List.infix_concat_iff.mp hin with hsuffix | hl
  · obtain ⟨front, hfront⟩ := hsuffix
    have hlast := congrArg List.getLast? hfront
    have herror : (ascii "ERROR").getLast? = some 0x52 := by decide
    rw [List.getLast?_append, List.getLast?_append, herror] at hlast
    exact absurd (Option.some.inj hlast) (by decide)
  · exact h hl

namespace Modem

theorem secondLine_append {first second : List UInt8} (hfirst : lf ∉ first) (hsecond : lf ∉ second)
    (rest : List UInt8) : secondLine (first ++ lf :: (second ++ lf :: rest)) = second := by
  simp only [secondLine, getline_append hfirst, getline_append hsecond]

end Modem

variable {p : Port} {echo line : List UInt8}

theorem Answers.lines (h : Answers p echo line) :
    ∃ tail, p.stream = (echo ++ [cr]) ++ lf :: ((line ++ [cr]) ++ lf :: tail)
      ∧ ascii "OK\r\n" <:+: tail := by
  obtain ⟨tail, hstream, hok⟩ := h.stream
  refine ⟨tail, ?_, hok⟩
  rw [hstream]
  simp [ascii, cr, lf]

/-- Reading until a delimiter that ends a line brings the first line. -/
theorem readUntil_line {d buf l rest : List UInt8} (hd : lf ∉ d) (hl : lf ∉ l)
    (hcome : buf ++ p.stream = l ++ lf :: rest) (hdelim : d ++ [lf] <:+: buf ++ p.stream) :
    ∃ r, (readUntil (d ++ [lf]) buf).result p = (true, l ++ lf :: r)
      ∧ r ++ ((readUntil (d ++ [lf]) buf).after p).stream = rest
      ∧ (d <:+ l ∨ d ++ [lf] <:+: r) := by
  have hfound := readUntil_found hdelim
  have hin := readUntil_found_iff.mp hfound
  have hall := @readUntil_append p (d ++ [lf]) buf
  rw [hcome] at hall
  obtain ⟨r, hr, -, hrest⟩ := first_line hd hl ⟨_, hall⟩ hin
  refine ⟨r, Prod.ext hfound hr, ?_, hrest⟩
  rw [hr, List.append_assoc, List.append_cancel_left_eq, List.cons_append, List.cons.injEq] at hall
  exact hall.2

/-- Up to the `OK` the two lines are in the buffer. -/
theorem Answers.readUntil_ok (h : Answers p echo line) (hecho : Echo echo) (hline : Answer line) :
    ((readUntil (ascii "OK\r\n") []).result p).1 = true
      ∧ Modem.secondLine ((readUntil (ascii "OK\r\n") []).result p).2 = line ++ [cr] := by
  obtain ⟨tail, hstream, hok⟩ := h.lines
  have hdelim : ascii "OK\r\n" = ascii "OK\r" ++ [lf] := by decide
  have hcome : ascii "OK\r" ++ [lf] <:+: [] ++ p.stream := by
    rw [← hdelim, List.nil_append, hstream]
    exact hok.trans ⟨(echo ++ [cr]) ++ lf :: ((line ++ [cr]) ++ [lf]), [], by simp⟩
  obtain ⟨r, hread, hr, hin⟩ :=
    readUntil_line (by decide) (lf_notMem_concat hecho.oneLine) hstream hcome
  rcases hin with hsuffix | hin
  · exact absurd hsuffix (not_suffix_concat hecho.notOk)
  · -- the delimiter is behind the second line as well
    obtain ⟨r', hr', -, -⟩ :=
      first_line (by decide) (lf_notMem_concat hline.oneLine) ⟨_, hr⟩ hin
    rw [hdelim, hread, hr']
    exact ⟨rfl, Modem.secondLine_append (lf_notMem_concat hecho.oneLine)
      (lf_notMem_concat hline.oneLine) r'⟩

theorem Answers.ask {modem : Modem} (h : Answers p echo line) (hopen : modem.isOpen = true)
    (hecho : Echo echo) (hline : Answer line) (cmd : List UInt8) :
    (modem.ask cmd).result p = .line (line ++ [cr]) := by
  obtain ⟨hfound, hsecond⟩ := h.readUntil_ok hecho hline
  simp [Modem.ask, hopen, h.accepts.result_write, hfound, hsecond]

theorem Answers.query {modem : Modem} {σ : Type} (h : Answers p echo line)
    (hopen : modem.isOpen = true) (hecho : Echo echo) (hline : Answer line) (cmd : List UInt8)
    (format : LineFormat σ) (out : σ) :
    (modem.query cmd format out).result p
      = modem.conclude format (line ++ [cr]) out Modem.succeeded := by
  simp [Modem.query, h.ask hopen hecho hline]

/-- In either mode the signal quality is read from the line. -/
theorem Answers.getSignalQuality {modem : Modem} (h : Answers p echo line)
    (hopen : modem.isOpen = true) (hecho : Echo echo) (hline : Answer line)
    (herror : ¬ ascii "ERROR" <:+: line) (lastKnown : Bool) :
    (modem.GetSignalQuality lastKnown).result p
      = modem.conclude Modem.csqFormat (line ++ [cr]) 0 Modem.succeeded := by
  cases lastKnown with
  | true =>
      simp [Modem.GetSignalQuality, h.query hopen hecho hline]
  | false =>
      obtain ⟨tail, hstream, hok⟩ := h.lines
      have hdelim : ascii "\r\n" = ascii "\r" ++ [lf] := by decide
      have hcr : lf ∉ ascii "\r" := by decide
      have hfirst := lf_notMem_concat hecho.oneLine
      have hsecond := lf_notMem_concat hline.oneLine
      have hgood := find_npos (not_infix_concat hecho.notError)
      have hgood' := find_npos (not_infix_concat herror)
      have hend : ∀ l rest : List UInt8, ascii "\r" ++ [lf] <:+: (l ++ [cr]) ++ lf :: rest :=
        fun l rest => ⟨l, rest, by simp [ascii, cr]⟩
      have hends := hend echo ((line ++ [cr]) ++ lf :: tail)
      have hends' := hend line tail
      generalize echo ++ [cr] = first at *
      generalize line ++ [cr] = second at *
      rw [← @stream_write p (ascii "AT+CSQ?\r")] at hstream
      -- each of the first two reads brings at least the next line
      obtain ⟨r, hread, hr, -⟩ := readUntil_line hcr hfirst (List.nil_append _ ▸ hstream)
        (by rw [List.nil_append, hstream]; exact hends)
      obtain ⟨r', hread', hr', -⟩ :=
        readUntil_line hcr hsecond hr (by rw [hr]; exact hends')
      rw [← hdelim] at hread hr' hread'
      have hfound := readUntil_found (hr' ▸ hok)
      simp [Modem.GetSignalQuality, hopen, h.accepts.result_write, hread, hread', hfound,
        getline_append hfirst, getline_append hsecond, hgood, hgood']

/-! ## Numbers -/

/-- What is printed for a field. Its flag is left out where the field has none. -/
structure Item where
  flag : Bool := false
  number : Numeral

section Numbers

variable {σ : Type}

/-- The flag of a field, and the separator behind it. -/
def Field.flagText (field : Field σ) (item : Item) : List UInt8 :=
  match field.flag with
  | none => []
  | some _ => [if item.flag then 0x31 else 0x30, comma, 0x20]

/-- The numbers of a line. Each is followed by its delimiter, and by a blank before the next one. -/
def render : List (Field σ) → List Item → List UInt8
  | field :: fields, item :: items =>
    field.flagText item ++ (item.number.text
      ++ field.delim :: ((if fields.isEmpty then [] else [0x20]) ++ render fields items))
  | _, _ => []

/-- Mark the flag of a field. -/
def Field.mark (field : Field σ) (item : Item) (out : σ) : σ :=
  match field.flag with
  | none => out
  | some mark => mark item.flag out

/-- Convert the numerals one after the other. -/
def convertAll (boost : Boost) : List (Field σ) → List Item → σ → Except Thrown Unit × σ
  | field :: fields, item :: items, out =>
    match field.number.convert boost item.number.text with
    | .error thrown => (.error thrown, field.mark item out)
    | .ok store => convertAll boost fields items (store (field.mark item out))
  | _, _, out => (.ok (), out)

namespace Modem

variable {boost : Boost} {pre line rest : List UInt8} {past : Memory}

theorem decodeFlag_flagText (field : Field σ) (item : Item) (out : σ)
    (hline : line = pre ++ (field.flagText item ++ rest)) (hlen : line.length < 2 ^ 63) :
    (decodeFlag field pre.length out).result (Memory.ofBuffer line past)
      = (field.mark item out, (pre ++ field.flagText item).length) := by
  unfold decodeFlag Field.mark
  unfold Field.flagText at hline ⊢
  cases hflag : field.flag with
  | none => simp
  | some mark =>
      rw [hflag] at hline
      have hmid : line = pre ++ ([if item.flag then 0x31 else 0x30] ++ (comma :: 0x20 :: rest)) := by
        rw [hline]
        rfl
      have hread := Memory.block_ofBuffer_mid pre [if item.flag then 0x31 else 0x30]
        (comma :: 0x20 :: rest) past
      rw [← hmid] at hread
      have hadd : sizeAdd pre.length 3 = pre.length + 3 := by
        apply sizeAdd_of_lt
        have := congrArg List.length hmid
        rw [List.length_append] at this
        omega
      have hchar : ([if item.flag then 0x31 else 0x30] == ascii "1") = item.flag := by
        cases item.flag <;> decide
      simp only [List.length_cons, List.length_nil, Nat.zero_add] at hread
      simp [hread, hadd, hchar]

/-- A number is found where it has been printed. -/
theorem number_at {text : List UInt8} {delim : UInt8} (hdelim : delim ∉ text)
    (hline : line = pre ++ (text ++ delim :: rest)) (hlen : line.length < 2 ^ 63) :
    findFirstOf line delim pre.length = pre.length + text.length
      ∧ (Memory.ofBuffer line past).block pre.length
        (sizeSub (findFirstOf line delim pre.length) pre.length) = text := by
  have hdrop : line.drop pre.length = text ++ delim :: rest := by rw [hline, List.drop_left]
  have hfind := findFirstOf_append hdrop hdelim
  refine ⟨hfind, ?_⟩
  have hlt : pre.length + text.length < 2 ^ 64 := by
    have := congrArg List.length hline
    simp only [List.length_append] at this
    omega
  rw [hfind, sizeSub_of_le (Nat.le_add_right _ _) hlt, Nat.add_sub_cancel_left, hline,
    Memory.block_ofBuffer_mid]

/-- **Printed numbers are converted each for itself.** -/
theorem decodeFields_render (fields : List (Field σ)) (items : List Item)
    (hitems : items.length = fields.length)
    (hdelim : ∀ field ∈ fields, ∀ n : Numeral, field.delim ∉ n.text)
    (hline : line = pre ++ render fields items) (hlen : line.length < 2 ^ 63) (out : σ) :
    (decodeFields boost line fields pre.length out).result (Memory.ofBuffer line past)
      = convertAll boost fields items out := by
  -- what has been read goes over to `pre`
  induction fields generalizing pre items out with
  | nil => cases items <;> rfl
  | cons field fields ih =>
      obtain ⟨item, items, rfl⟩ := List.exists_cons_of_length_eq_add_one hitems
      rw [render] at hline
      have hflag := @decodeFlag_flagText _ pre line _ past field item out hline hlen
      rw [← List.append_assoc] at hline
      obtain ⟨hfind, htext⟩ := @number_at _ line _ past _ _
        (hdelim field List.mem_cons_self item.number) hline hlen
      have hadd : sizeAdd ((pre ++ field.flagText item).length + item.number.text.length) 2
          = (pre ++ field.flagText item).length + item.number.text.length + 2 := by
        apply sizeAdd_of_lt
        have := congrArg List.length hline
        simp only [List.length_append] at this ⊢
        omega
      rw [convertAll, decodeFields]
      simp only [result_bind, hflag, result_read, htext]
      cases field.number.convert boost item.number.text with
      | error thrown => rfl
      | ok store =>
          cases fields with
          | nil => cases items <;> rfl
          | cons next fields =>
              have hnext : line
                  = (pre ++ field.flagText item ++ item.number.text ++ [field.delim, 0x20])
                    ++ render (next :: fields) items := by
                rw [hline]
                simp
              have hpos : (pre ++ field.flagText item ++ item.number.text
                  ++ [field.delim, 0x20]).length
                  = (pre ++ field.flagText item).length + item.number.text.length + 2 := by
                simp only [List.length_append]
                rfl
              dsimp only
              rw [hfind, hadd, ← hpos]
              apply ih items (by simpa using hitems) _ hnext
              intro f hf
              exact hdelim f (List.mem_cons_of_mem _ hf)

/-- A line of printed numbers, taken apart. -/
theorem conclude_render {ρ : Type} (modem : Modem) (format : LineFormat σ) (header : List UInt8)
    (items : List Item) (hitems : items.length = format.fields.length)
    (hdelim : ∀ field ∈ format.fields, ∀ n : Numeral, field.delim ∉ n.text)
    (hstart : format.start line = some header.length)
    (hline : line = header ++ render format.fields items) (hlen : line.length < 2 ^ 63) (out : σ)
    (returned : Option (Except Thrown Unit) → σ → ρ) :
    (modem.conclude format line out returned).returned
      = returned (some (convertAll modem.boost format.fields items out).1)
        (convertAll modem.boost format.fields items out).2 := by
  have hdecode := @decodeFields_render _ modem.boost header line (modem.past line)
    format.fields items hitems hdelim hline hlen out
  rw [conclude_of_start hstart, hdecode]

end Modem

end Numbers

/-! ## Characters -/

theorem comma_notMem (n : Numeral) : comma ∉ n.text :=
  notMem_text (by decide) (by decide) (by decide) n

theorem cr_notMem (n : Numeral) : cr ∉ n.text :=
  notMem_text (by decide) (by decide) (by decide) n

/-- Text without a line feed and without a `K`. -/
def Plain (l : List UInt8) : Prop := ∀ c ∈ l, c ≠ lf ∧ c ≠ 0x4B

instance (l : List UInt8) : Decidable (Plain l) :=
  inferInstanceAs (Decidable (∀ c ∈ l, c ≠ lf ∧ c ≠ 0x4B))

@[simp] theorem plain_append_iff {l l' : List UInt8} :
    Plain (l ++ l') ↔ Plain l ∧ Plain l' :=
  List.forall_mem_append

@[simp] theorem plain_text (n : Numeral) : Plain n.text := by
  intro c hc
  refine ⟨?_, ?_⟩ <;> rintro rfl
  · exact notMem_text (by decide) (by decide) (by decide) n hc
  · exact notMem_text (by decide) (by decide) (by decide) n hc

theorem Plain.answer (h : Plain line) : Answer line where
  oneLine hmem := (h lf hmem).1 rfl
  notOk hsuffix := (h 0x4B (hsuffix.subset (by decide))).2 rfl

theorem length_lt_of_answers (h : Answers p echo line) : (line ++ [cr]).length < 2 ^ 63 := by
  obtain ⟨tail, hstream, -⟩ := h.lines
  have hlen := p.length_stream_lt
  rw [hstream] at hlen
  simp only [List.length_append, List.length_cons, List.length_nil] at hlen ⊢
  omega

end Iridium
