import MapADroid.RouteCalc.RoutecalcUtil

/- A route that is persisted is read back as it was.

   The row holds the `str` of a list of texts with double quotes. Readers split it at a
   quote with a comma, so that every line but the last has lost its closing quote, and
   take what is left of the brackets, the quotes and the blank before each text off the
   line. With floats that are written without any of these the lines are the texts again
   (`lines_written`), and a text is split at its comma. -/
namespace MapADroid.RouteCalc
open Lib

variable {K : Type}

namespace Texts

/-- A line as `read_saved_json_route` reads it; `none` if it raises. -/
def readJsonLine (t : Texts K) (line : List Char) : Option (Dict String K) :=
  match List.splitOn ',' line with
  | lat :: lng :: _ => do
    let lat ← t.float (t.strip lat)
    let lng ← t.float (t.strip lng)
    return (Dict.empty.insert "lat" lat).insert "lng" lng
  | _ => none

/-- `read_saved_json_route`. -/
def readSavedJsonRoute (t : Texts K) (routecalcEntry : SettingsRoutecalc) : Option (List (Dict String K)) :=
  match routecalcEntry.routefile with
  | none => some []
  | some routefile =>
    if (t.strip routefile).isEmpty then some []
    else (((splitPair quotationMark ',' routefile).map t.clean).filter fun line => !line.isEmpty).mapM t.readJsonLine

/-- The dict of a location. -/
def asDict (l : Location K) : Dict String K := (Dict.empty.insert "lat" l.lat).insert "lng" l.lng

/-- The characters of a float. -/
def isFloatChar (c : Char) : Bool := c.isDigit || c = '+' || c = '-' || c = '.' || c = 'e'

/-- `float` reads what `str` writes of a finite float, which is digits, signs, points and exponents; a blank is
white space, and no character of the `str` of a list of such texts is. -/
structure Writes (t : Texts K) (finite : K → Prop) : Prop where
  float_str : ∀ x, finite x → t.float (t.str x) = some x
  str_ne_nil : ∀ x, finite x → t.str x ≠ []
  str_chars : ∀ x, finite x → ∀ c ∈ t.str x, isFloatChar c = true
  space_blank : t.space ' ' = true
  space_not : ∀ c, isFloatChar c = true ∨ c = ',' ∨ c = '[' → t.space c = false

variable {t : Texts K} {finite : K → Prop}

/-! ## Splitting -/

theorem splitPair_ne_nil (a b : Char) (s : List Char) : splitPair a b s ≠ [] := by
  fun_induction splitPair a b s with
  | case1 => simp
  | case2 c => simp
  | case3 c d rest hpair ih => simp
  | case4 c d rest hpair hnil ih => simp
  | case5 c d rest hpair first lines hcons ih => simp

/-- A character that does not begin a pair goes to the first line. -/
theorem splitPair_cons {a b c : Char} {s : List Char} (h : ∀ rest, c :: s ≠ a :: b :: rest) :
    splitPair a b (c :: s) = (splitPair a b s).modifyHead (c :: ·) := by
  cases s with
  | nil => rfl
  | cons d rest =>
    have hpair : ¬(c = a ∧ d = b) := fun ⟨hc, hd⟩ => h rest (by rw [hc, hd])
    rw [splitPair, if_neg hpair]
    cases hsplit : splitPair a b (d :: rest) with
    | nil => exact absurd hsplit (splitPair_ne_nil a b _)
    | cons first lines => rfl

theorem splitPair_append {a b : Char} {p : List Char} (hp : a ∉ p) (s : List Char) :
    splitPair a b (p ++ s) = (splitPair a b s).modifyHead (p ++ ·) := by
  induction p with
  | nil =>
    rw [List.nil_append]
    cases splitPair a b s with
    | nil => rfl
    | cons first lines => rfl
  | cons c p ih =>
    have hc : c ≠ a := fun h => hp (h ▸ List.mem_cons_self)
    rw [List.cons_append, splitPair_cons fun rest h => hc (List.cons.inj h).1,
      ih fun h => hp (List.mem_cons_of_mem c h)]
    cases splitPair a b s with
    | nil => rfl
    | cons first lines => rfl

theorem splitPair_pair (a b : Char) (s : List Char) : splitPair a b (a :: b :: s) = [] :: splitPair a b s := by
  rw [splitPair, if_pos ⟨rfl, rfl⟩]

/-! ## Lines -/

/-- White space before a text without any is taken off. -/
theorem strip_blanks {p e : List Char} (hp : ∀ c ∈ p, t.space c = true) (he : ∀ c ∈ e, t.space c = false) :
    t.strip (p ++ e) = e := by
  have hdrop : (p ++ e).dropWhile t.space = e := by
    rw [List.dropWhile_append_of_pos hp]
    cases e with
    | nil => rfl
    | cons c e => rw [List.dropWhile_cons_of_neg (by rw [he c List.mem_cons_self]; simp)]
  unfold strip
  rw [hdrop]
  rcases List.eq_nil_or_concat e with rfl | ⟨e, c, rfl⟩
  · rfl
  · rw [List.concat_eq_append, List.rdropWhile_concat_neg]
    rw [he c (by simp)]
    simp

theorem strip_ne_nil {c : Char} (hc : t.space c = false) (s : List Char) : t.strip (c :: s) ≠ [] := by
  unfold strip
  rw [List.dropWhile_cons_of_neg (by rw [hc]; simp), ne_eq, List.rdropWhile_eq_nil_iff]
  intro h
  have hspace := h c List.mem_cons_self
  rw [hc] at hspace
  cases hspace

/-- The text of a location. -/
def entry (t : Texts K) (l : Location K) : List Char := t.str l.lat ++ ',' :: t.str l.lng

/-- The coordinates of a location are finite. -/
def Finite (finite : K → Prop) (l : Location K) : Prop := finite l.lat ∧ finite l.lng

namespace Writes

theorem entry_chars (h : t.Writes finite) {l : Location K} (hl : Finite finite l) {c : Char} (hc : c ∈ t.entry l) :
    isFloatChar c = true ∨ c = ',' := by
  rcases List.mem_append.mp hc with hc | hc
  · exact .inl (h.str_chars _ hl.1 c hc)
  · rcases List.mem_cons.mp hc with hc | hc
    · exact .inr hc
    · exact .inl (h.str_chars _ hl.2 c hc)

theorem notMem_entry (h : t.Writes finite) {l : Location K} (hl : Finite finite l) {c : Char}
    (hfloat : isFloatChar c = false) (hcomma : c ≠ ',') : c ∉ t.entry l := by
  intro hc
  rcases h.entry_chars hl hc with hc | hc
  · rw [hfloat] at hc
    cases hc
  · exact hcomma hc

theorem entry_space (h : t.Writes finite) {l : Location K} (hl : Finite finite l) :
    ∀ c ∈ t.entry l, t.space c = false := fun c hc =>
  h.space_not c ((h.entry_chars hl hc).elim .inl fun hcomma => .inr (.inl hcomma))

/-- The text of a location begins with a character of a float. -/
theorem entry_cons (h : t.Writes finite) {l : Location K} (hl : Finite finite l) :
    ∃ c rest, t.entry l = c :: rest ∧ c ≠ ',' := by
  cases hstr : t.str l.lat with
  | nil => exact absurd hstr (h.str_ne_nil _ hl.1)
  | cons c rest =>
    refine ⟨c, rest ++ ',' :: t.str l.lng, ?_, fun hc => ?_⟩
    · rw [entry, hstr, List.cons_append]
    · have hfloat := h.str_chars _ hl.1 c (by rw [hstr]; exact List.mem_cons_self)
      rw [hc] at hfloat
      exact absurd hfloat (by decide)

/-- What stands before the text of a location, and the quotes and brackets, are taken off its line. -/
theorem clean_line (h : t.Writes finite) {l : Location K} (hl : Finite finite l) {p q : List Char}
    (hp : p = ['['] ∨ p = [' ']) (hq : ∀ c ∈ q, c = quotationMark ∨ c = ']') :
    t.clean (p ++ quotationMark :: (t.entry l ++ q)) = t.entry l := by
  have hentry : (t.entry l).filter (fun c => !(c = quotationMark || c = ']' || c = '[')) = t.entry l := by
    rw [List.filter_eq_self]
    intro c hc
    have hmark : c ≠ quotationMark := fun heq => h.notMem_entry hl (by decide) (by decide) (heq ▸ hc)
    have hclose : c ≠ ']' := fun heq => h.notMem_entry hl (by decide) (by decide) (heq ▸ hc)
    have hopen : c ≠ '[' := fun heq => h.notMem_entry hl (by decide) (by decide) (heq ▸ hc)
    simp [hmark, hclose, hopen]
  have hrest : q.filter (fun c => !(c = quotationMark || c = ']' || c = '[')) = [] := by
    rw [List.filter_eq_nil_iff]
    intro c hc
    rcases hq c hc with hc | hc
    · simp [hc]
    · simp [hc]
  unfold clean
  rw [List.filter_append, List.filter_cons_of_neg (by simp), List.filter_append, hentry, hrest, List.append_nil]
  rcases hp with rfl | rfl
  · exact strip_blanks (p := []) (by simp) (h.entry_space hl)
  · refine strip_blanks (p := [' ']) (fun c hc => ?_) (h.entry_space hl)
    rw [List.mem_singleton.mp hc]
    exact h.space_blank

end Writes

/-! ## The text of a route -/

/-- A text in quotes. -/
def quoted (e : List Char) : List Char := quotationMark :: (e ++ [quotationMark])

theorem map_intercalate (f : Char → Char) (sep : List Char) (ls : List (List Char)) :
    (List.intercalate sep ls).map f = List.intercalate (sep.map f) (ls.map (·.map f)) := by
  induction ls with
  | nil => rfl
  | cons l ls ih =>
    cases ls with
    | nil => simp
    | cons l' ls =>
      rw [List.map_cons, List.map_cons, List.intercalate_cons_cons, List.intercalate_cons_cons, List.map_append,
        List.map_append, ih, List.map_cons]

/-- What is written: the texts in double quotes, with commas and blanks between them, in brackets. -/
theorem routefile_written (h : t.Writes finite) (routecalcEntry : SettingsRoutecalc) {route : List (Location K)}
    (hroute : ∀ l ∈ route, Finite finite l) : (t.writeRouteToDbEntry routecalcEntry route).routefile =
      some ('[' :: (List.intercalate [',', ' '] (route.map fun l => quoted (t.entry l)) ++ [']'])) := by
  have hquoted : ∀ l ∈ route, (apostrophe :: (t.str l.lat ++ ',' :: t.str l.lng ++ [apostrophe])).map
      (fun c => if c = apostrophe then quotationMark else c) = quoted (t.entry l) := by
    intro l hl
    have hsame : (t.entry l).map (fun c => if c = apostrophe then quotationMark else c) = t.entry l := by
      conv_rhs => rw [← List.map_id (t.entry l)]
      refine List.map_congr_left fun c hc => if_neg fun heq => ?_
      exact h.notMem_entry (hroute l hl) (by decide) (by decide) (heq ▸ hc)
    show (apostrophe :: (t.entry l ++ [apostrophe])).map _ = _
    rw [List.map_cons, List.map_append, hsame]
    rfl
  have hbrackets : ∀ text : List Char, ('[' :: (text ++ [']'])).map (fun c => if c = apostrophe then quotationMark else c) =
      '[' :: (text.map (fun c => if c = apostrophe then quotationMark else c) ++ [']']) := by
    intro text
    rw [List.map_cons, List.map_append]
    rfl
  have hmap : (route.map fun l => apostrophe :: (t.str l.lat ++ ',' :: t.str l.lng ++ [apostrophe])).map
      (·.map fun c => if c = apostrophe then quotationMark else c) = route.map fun l => quoted (t.entry l) := by
    rw [List.map_map]
    exact List.map_congr_left hquoted
  show some _ = some _
  rw [hbrackets, map_intercalate, hmap]
  rfl

/-- Up to the quote that ends a text, nothing is split. -/
theorem splitPair_quoted {p e : List Char} (hp : quotationMark ∉ p) (he : quotationMark ∉ e)
    (hfirst : ∃ c rest, e = c :: rest ∧ c ≠ ',') (s : List Char) :
    splitPair quotationMark ',' (p ++ quotationMark :: (e ++ s)) =
      (splitPair quotationMark ',' s).modifyHead (fun first => p ++ quotationMark :: (e ++ first)) := by
  have hpair : ∀ rest, quotationMark :: (e ++ s) ≠ quotationMark :: ',' :: rest := by
    obtain ⟨c, e', rfl, hc⟩ := hfirst
    intro rest heq
    exact hc (List.cons.inj (List.cons.inj heq).2).1
  rw [splitPair_append hp, splitPair_cons hpair, splitPair_append he]
  cases splitPair quotationMark ',' s with
  | nil => rfl
  | cons first lines => rfl

/-- The lines that texts in quotes are split into, whatever stands before the first quote: if `f` makes `g e` of
the line of a text `e`, then these are what is made of the lines. -/
theorem lines_quoted {f g : List Char → List Char} {p : List Char} (first : List Char) (texts : List (List Char))
    (hp : quotationMark ∉ p) (htexts : ∀ e ∈ first :: texts, quotationMark ∉ e ∧ ∃ c rest, e = c :: rest ∧ c ≠ ',')
    (hf : ∀ e ∈ first :: texts, ∀ p' q, p' = p ∨ p' = [' '] → q = [] ∨ q = [quotationMark, ']'] →
      f (p' ++ quotationMark :: (e ++ q)) = g e) :
    (splitPair quotationMark ',' (p ++ (List.intercalate [',', ' '] ((first :: texts).map quoted) ++ [']']))).map f =
      (first :: texts).map g := by
  induction texts generalizing p first with
  | nil =>
    obtain ⟨hquote, hhead⟩ := htexts first List.mem_cons_self
    have hend : splitPair quotationMark ',' [quotationMark, ']'] = [[quotationMark, ']']] := by decide
    have htext : p ++ (List.intercalate [',', ' '] ([first].map quoted) ++ [']']) =
        p ++ quotationMark :: (first ++ [quotationMark, ']']) := by
      simp [quoted]
    have hline := hf first List.mem_cons_self p [quotationMark, ']'] (.inl rfl) (.inr rfl)
    rw [htext, splitPair_quoted hp hquote hhead, hend, List.modifyHead_cons, List.map_cons, hline]
    rfl
  | cons e' texts ih =>
    obtain ⟨hquote, hhead⟩ := htexts first List.mem_cons_self
    have htext : p ++ (List.intercalate [',', ' '] ((first :: e' :: texts).map quoted) ++ [']']) =
        p ++ quotationMark :: (first ++ quotationMark :: ',' ::
          ([' '] ++ (List.intercalate [',', ' '] ((e' :: texts).map quoted) ++ [']']))) := by
      simp [quoted]
    have hrest := ih (p := [' ']) e' (by decide) (fun e he => htexts e (List.mem_cons_of_mem _ he)) (by
      intro e he p' q hp' hq
      exact hf e (List.mem_cons_of_mem _ he) p' q (.inr (hp'.elim id id)) hq)
    have hline := hf first List.mem_cons_self p [] (.inl rfl) (.inl rfl)
    rw [htext, splitPair_quoted hp hquote hhead, splitPair_pair, List.modifyHead_cons, List.map_cons, hrest, hline]
    rfl

/-- The lines of a route. -/
theorem lines_written (h : t.Writes finite) {l : Location K} {route : List (Location K)}
    (hroute : ∀ m ∈ l :: route, Finite finite m) :
    (splitPair quotationMark ','
      (['['] ++ (List.intercalate [',', ' '] ((l :: route).map fun l => quoted (t.entry l)) ++ [']']))).map t.clean =
      (l :: route).map t.entry := by
  have hlines := lines_quoted (f := t.clean) (g := id) (p := ['[']) (t.entry l) (route.map t.entry)
    (by decide) ?_ ?_
  · simpa [Function.comp_def] using hlines
  · intro e he
    obtain ⟨m, hm, rfl⟩ := List.mem_map.mp (show e ∈ (l :: route).map t.entry from he)
    exact ⟨h.notMem_entry (hroute m hm) (by decide) (by decide), h.entry_cons (hroute m hm)⟩
  · intro e he p q hp hq
    obtain ⟨m, hm, rfl⟩ := List.mem_map.mp (show e ∈ (l :: route).map t.entry from he)
    apply h.clean_line (hroute m hm) hp
    rcases hq with rfl | rfl
    · simp
    · simp

theorem readLine_entry (h : t.Writes finite) {l : Location K} (hl : Finite finite l) :
    t.readLine (t.entry l) = some l := by
  have hlat : ',' ∉ t.str l.lat := fun hc => absurd (h.str_chars _ hl.1 ',' hc) (by decide)
  have hlng : ',' ∉ t.str l.lng := fun hc => absurd (h.str_chars _ hl.2 ',' hc) (by decide)
  have hstrip : ∀ {x : K}, finite x → t.strip (t.str x) = t.str x := fun hx =>
    strip_blanks (p := []) (by simp) fun c hc => h.space_not c (.inl (h.str_chars _ hx c hc))
  unfold readLine entry
  rw [List.splitOn_append_cons_self, List.splitOn_eq_singleton hlat, List.splitOn_eq_singleton hlng]
  simp only [List.cons_append, List.nil_append, hstrip hl.1, hstrip hl.2, h.float_str _ hl.1, h.float_str _ hl.2]
  rfl

theorem mapM_readLine (h : t.Writes finite) {route : List (Location K)} (hroute : ∀ l ∈ route, Finite finite l) :
    (route.map t.entry).mapM t.readLine = some route := by
  induction route with
  | nil => rfl
  | cons l route ih =>
    rw [List.map_cons, List.mapM_cons, readLine_entry h (hroute l List.mem_cons_self),
      ih fun m hm => hroute m (List.mem_cons_of_mem l hm)]
    rfl

/-! ## Both readers -/

/-- A dict is read of a line exactly if a location is. -/
theorem readJsonLine_eq (t : Texts K) (line : List Char) : t.readJsonLine line = (t.readLine line).map asDict := by
  unfold readJsonLine readLine
  cases List.splitOn ',' line with
  | nil => rfl
  | cons lat rest =>
    cases rest with
    | nil => rfl
    | cons lng rest =>
      simp only
      cases t.float (t.strip lat) with
      | none => rfl
      | some x =>
        cases t.float (t.strip lng) with
        | none => rfl
        | some y => rfl

theorem mapM_readJsonLine (t : Texts K) (lines : List (List Char)) :
    lines.mapM t.readJsonLine = (lines.mapM t.readLine).map (·.map asDict) := by
  induction lines with
  | nil => rfl
  | cons line lines ih =>
    rw [List.mapM_cons, List.mapM_cons, readJsonLine_eq, ih]
    cases t.readLine line with
    | none => rfl
    | some l =>
      cases lines.mapM t.readLine with
      | none => rfl
      | some route => rfl

theorem readSavedJsonRoute_eq (t : Texts K) (routecalcEntry : SettingsRoutecalc) :
    t.readSavedJsonRoute routecalcEntry = (t.readPersistedRoute routecalcEntry).map (·.map asDict) := by
  unfold readSavedJsonRoute readPersistedRoute
  cases routecalcEntry.routefile with
  | none => rfl
  | some routefile =>
    simp only
    split
    · rfl
    · rw [mapM_readJsonLine]

/-- A route of finite coordinates that was written is read back as the same list, and as the same coordinates in
dicts. -/
theorem readPersistedRoute_written (h : t.Writes finite) (routecalcEntry : SettingsRoutecalc)
    {route : List (Location K)} (hroute : ∀ l ∈ route, Finite finite l) :
    t.readPersistedRoute (t.writeRouteToDbEntry routecalcEntry route) = some route ∧
      t.readSavedJsonRoute (t.writeRouteToDbEntry routecalcEntry route) = some (route.map asDict) := by
  have hread : t.readPersistedRoute (t.writeRouteToDbEntry routecalcEntry route) = some route := by
    unfold readPersistedRoute
    simp only [routefile_written h routecalcEntry hroute]
    have hbracket : t.space '[' = false := h.space_not '[' (.inr (.inr rfl))
    rw [if_neg (by rw [List.isEmpty_iff]; exact strip_ne_nil hbracket _)]
    cases route with
    | nil =>
      have hsplit : splitPair quotationMark ',' ('[' :: (List.intercalate [',', ' '] [] ++ [']'])) = [['[', ']']] := by
        decide
      have hclean : t.clean ['[', ']'] = [] := rfl
      rw [List.map_nil, hsplit, List.map_singleton, hclean]
      rfl
    | cons l route =>
      have hlines := lines_written h hroute
      have hkept : ((l :: route).map t.entry).filter (fun line => !line.isEmpty) = (l :: route).map t.entry := by
        rw [List.filter_eq_self]
        intro line hline
        obtain ⟨m, hm, rfl⟩ := List.mem_map.mp hline
        obtain ⟨c, rest, heq, _⟩ := h.entry_cons (hroute m hm)
        rw [heq]
        rfl
      rw [List.singleton_append] at hlines
      rw [hlines, hkept]
      exact mapM_readLine h hroute
  rw [readSavedJsonRoute_eq, hread]
  exact ⟨rfl, rfl⟩

/-- The texts of two floats, as Python writes and reads them. -/
def halves : Texts ℚ where
  float text := if text = ['0', '.', '5'] then some (1 / 2) else if text = ['-', '2', '.', '0'] then some (-2) else none
  str x := if x = 1 / 2 then ['0', '.', '5'] else ['-', '2', '.', '0']
  space c := c = ' '

theorem halves_str_half : halves.str (1 / 2) = ['0', '.', '5'] := if_pos rfl

theorem halves_str_two : halves.str (-2) = ['-', '2', '.', '0'] := if_neg (by norm_num)

theorem halves_writes : halves.Writes fun x => x = 1 / 2 ∨ x = -2 where
  float_str := by
    rintro x (rfl | rfl)
    · rw [halves_str_half]
      rfl
    · rw [halves_str_two]
      rfl
  str_ne_nil := by
    rintro x (rfl | rfl)
    · rw [halves_str_half]
      simp
    · rw [halves_str_two]
      simp
  str_chars := by
    rintro x (rfl | rfl)
    · rw [halves_str_half]
      exact List.all_eq_true.mp rfl
    · rw [halves_str_two]
      exact List.all_eq_true.mp rfl
  space_blank := rfl
  space_not := by
    intro c hc
    refine decide_eq_false fun heq => ?_
    subst heq
    revert hc
    decide

theorem readPersistedRoute_written_halves :
    halves.readPersistedRoute (halves.writeRouteToDbEntry ⟨1, 1, false, 0, none⟩ [⟨1 / 2, -2⟩, ⟨-2, 1 / 2⟩]) =
        some [⟨1 / 2, -2⟩, ⟨-2, 1 / 2⟩] ∧
      halves.readSavedJsonRoute (halves.writeRouteToDbEntry ⟨1, 1, false, 0, none⟩ [⟨1 / 2, -2⟩, ⟨-2, 1 / 2⟩]) =
        some ([⟨1 / 2, -2⟩, ⟨-2, 1 / 2⟩].map asDict) :=
  readPersistedRoute_written halves_writes ⟨1, 1, false, 0, none⟩ fun l hl => by
    unfold Finite
    rcases List.mem_cons.mp hl with rfl | hl
    · exact ⟨.inl rfl, .inr rfl⟩
    · rw [List.mem_singleton.mp hl]
      exact ⟨.inr rfl, .inl rfl⟩

end Texts

end MapADroid.RouteCalc
