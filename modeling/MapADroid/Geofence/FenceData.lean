import MapADroid.RouteCalc.PersistedRoute
import MapADroid.Geofence.Polygon

/- The areas of a geofence, from the lines that are submitted to the areas that are read.

   `GeofenceEndpoint` stores the `str` of the list of lines with every apostrophe turned
   into a quote, and `GeofenceHelper.parse_geofences_file` takes quotes and closing
   brackets off, splits at a quote with a comma and strips what is left. A quote in a name
   cannot be told from one that `repr` has put there, and an apostrophe has become one: no
   name that is read has either. `strip` also takes the blank that a name ends with, since
   the closing bracket is gone by then. Nothing else is lost
   (`parseGeofencesFile_stored_iff`). -/
namespace MapADroid.Geofence
open Lib RouteCalc RouteCalc.Texts

variable {K : Type}

/-- What `repr` writes of a single character: itself if it is printable, and else an escape. -/
structure Printing where
  printable : Char → Bool
  escape : Char → List Char

/-- The columns of `SettingsGeofence` that are written and read here. -/
structure SettingsGeofence where
  geofenceId : Nat
  fenceData : List Char

/-- An area as `parse_geofences_file` returns it. -/
structure Area (K : Type) where
  excluded : Bool
  name : List Char
  polygon : List (Coord K)
  deriving DecidableEq

/-! ## Writing -/

namespace Printing
variable (p : Printing)

def reprChar (quote c : Char) : List Char :=
  if c = quote ∨ c = '\\' then ['\\', c] else if p.printable c then [c] else p.escape c

/-- `repr` of a text: in apostrophes, or in quotes if it has an apostrophe and no quote. -/
def reprText (text : List Char) : List Char :=
  let quote := if apostrophe ∈ text ∧ quotationMark ∉ text then quotationMark else apostrophe
  quote :: (text.flatMap (p.reprChar quote) ++ [quote])

/-- `str` of a list of texts. -/
def strList (texts : List (List Char)) : List Char :=
  '[' :: (List.intercalate [',', ' '] (texts.map p.reprText) ++ [']'])

/-- `replace("'", "\"")`. -/
def toQuote (c : Char) : Char := if c = apostrophe then quotationMark else c

/-- `GeofenceEndpoint._handle_additional_keys`, with a list of texts for the value. -/
def handleAdditionalKeys (dbEntry : SettingsGeofence) (key : String) (value : List (List Char)) :
    SettingsGeofence × Bool :=
  if key = "fence_data_raw" ∨ key = "fence_data" then
    ({ dbEntry with fenceData := (p.strList value).map toQuote }, true)
  else (dbEntry, false)

end Printing

/-! ## Reading -/

section
variable (t : Texts K)

/-- A line without quotes and closing brackets. -/
def cleanLine (line : List Char) : List Char := t.strip (line.filter fun c => !(c = quotationMark || c = ']'))

def readCoord (line : List Char) : Option (Coord K) :=
  match List.splitOn ',' line with
  | [lat, lon] => do
    let lat ← t.float lat
    let lon ← t.float lon
    some ⟨lat, lon⟩
  | _ => none

/-- `geofences[-1]['polygon'].append(coord)`. -/
def appendCoord (geofences : List (Area K)) (coord : Coord K) : Option (List (Area K)) :=
  geofences.getLast?.map fun area => geofences.dropLast ++ [{ area with polygon := area.polygon ++ [coord] }]

/-- What the loop of `parse_geofences_file` changes. -/
structure Parse (K : Type) where
  geofences : List (Area K)
  firstLine : Bool

/-- The name of a file without one. -/
def fallbackName (fenceFallback : Option (List Char)) : List Char :=
  match fenceFallback with
  | none => "unnamed".toList
  | some fallback => if fallback.isEmpty then "unnamed".toList else fallback

/-- One turn of the loop, for a line that is cleaned already; `none` if it raises. -/
def Parse.line (excluded : Bool) (fenceFallback : Option (List Char)) (s : Parse K) (line : List Char) :
    Option (Parse K) :=
  match line with
  | [] => some s
  | c :: _ =>
    if c = '[' then
      let name := line.filter fun c => !(c = '[' || c = ']')
      some ⟨s.geofences ++ [⟨excluded, name, []⟩], false⟩
    else do
      let s := if s.firstLine then ⟨s.geofences ++ [⟨excluded, fallbackName fenceFallback, []⟩], false⟩ else s
      let coord ← readCoord t line
      let geofences ← appendCoord s.geofences coord
      some { s with geofences := geofences }

/-- `parse_geofences_file`; `none` if it raises. -/
def parseGeofencesFile (settings : Option SettingsGeofence) (excluded : Bool) (fenceFallback : Option (List Char)) :
    Option (List (Area K)) :=
  match settings with
  | none => some []
  | some settings => do
    let lines := (splitPair quotationMark ',' (settings.fenceData.erase '[')).map (cleanLine t)
    let s ← lines.foldlM (Parse.line t excluded fenceFallback) ⟨[], true⟩
    some s.geofences

end

/-! ## What is submitted -/

/-- Printable, and none of the characters that the lines are written with. -/
def Printing.Plain (p : Printing) (c : Char) : Prop :=
  p.printable c = true ∧ c ∉ [' ', ',', '[', ']', '\\', apostrophe, quotationMark]

instance (p : Printing) (c : Char) : Decidable (p.Plain c) := inferInstanceAs (Decidable (_ ∧ _))

/-- The line of a coordinate: texts that `float` reads. -/
structure CoordLine (t : Texts K) (p : Printing) where
  lat : List Char
  lon : List Char
  coord : Coord K
  reads : t.float lat = some coord.lat ∧ t.float lon = some coord.lon
  nonempty : lat ≠ []
  plain : ∀ c ∈ lat ++ lon, p.Plain c

/-- An area that is submitted. -/
structure Submitted (t : Texts K) (p : Printing) where
  name : List Char
  coords : List (CoordLine t p)
  printable : ∀ c ∈ name, p.printable c = true ∧ c ∉ ['[', ']', '\\']
  nonempty : coords ≠ []

variable {t : Texts K} {p : Printing}

def CoordLine.line (l : CoordLine t p) : List Char := l.lat ++ ',' :: l.lon

/-- The lines of an area: its name in brackets, and its coordinates. -/
def Submitted.lines (a : Submitted t p) : List (List Char) :=
  ('[' :: (a.name ++ [']'])) :: a.coords.map CoordLine.line

/-- The area that is to be read. -/
def Submitted.area (a : Submitted t p) (excluded : Bool) : Area K := ⟨excluded, a.name, a.coords.map CoordLine.coord⟩

/-- The name has neither an apostrophe nor a quote, and no blank at its end. -/
def Submitted.Keeps (a : Submitted t p) : Prop :=
  apostrophe ∉ a.name ∧ quotationMark ∉ a.name ∧ a.name.getLast? ≠ some ' '

/-- Of what is printable, only the blank is white space; it is, and all of ASCII but the control characters is
printable. -/
structure Python (t : Texts K) (p : Printing) : Prop where
  space_blank : t.space ' ' = true
  space_printable : ∀ c, p.printable c = true → t.space c = true → c = ' '
  printable_ascii : ∀ c : Char, 32 ≤ c.toNat → c.toNat < 127 → p.printable c = true

/-! ## What is stored -/

theorem apostrophe_notMem_toQuote (text : List Char) : apostrophe ∉ text.map Printing.toQuote := by
  intro h
  obtain ⟨c, _, hc⟩ := List.mem_map.mp h
  unfold Printing.toQuote at hc
  split at hc
  · exact absurd hc (by decide)
  · next hne => exact hne hc

/-- A text of printable characters without quotes, apostrophes and backslashes is put in quotes. -/
theorem reprText_plain {e : List Char}
    (he : ∀ c ∈ e, p.printable c = true ∧ c ≠ '\\' ∧ c ≠ apostrophe ∧ c ≠ quotationMark) :
    (p.reprText e).map Printing.toQuote = quoted e := by
  have hapostrophe : apostrophe ∉ e := fun hc => (he _ hc).2.2.1 rfl
  have hchars : e.flatMap (p.reprChar apostrophe) = e := by
    have hsingle : ∀ c ∈ e, p.reprChar apostrophe c = [c] := by
      intro c hc
      obtain ⟨hprintable, hbackslash, hc', _⟩ := he c hc
      simp [Printing.reprChar, hprintable, hbackslash, hc']
    rw [List.flatMap_congr hsingle, List.flatMap_singleton']
  have hsame : e.map Printing.toQuote = e := by
    conv_rhs => rw [← List.map_id e]
    exact List.map_congr_left fun c hc => if_neg (he c hc).2.2.1
  simp only [Printing.reprText, hapostrophe, false_and, if_false, hchars, List.map_cons, List.map_append, hsame,
    List.map_nil]
  rfl

/-- The text of a list of such texts, with its first bracket taken off. -/
theorem stored_plain {texts : List (List Char)}
    (htexts : ∀ e ∈ texts, ∀ c ∈ e, p.printable c = true ∧ c ≠ '\\' ∧ c ≠ apostrophe ∧ c ≠ quotationMark) :
    ((p.strList texts).map Printing.toQuote).erase '[' = List.intercalate [',', ' '] (texts.map quoted) ++ [']'] := by
  have hquoted : (texts.map p.reprText).map (·.map Printing.toQuote) = texts.map quoted := by
    rw [List.map_map]
    exact List.map_congr_left fun e he => reprText_plain (htexts e he)
  unfold Printing.strList
  rw [List.map_cons, List.map_append, map_intercalate, hquoted]
  have hopen : Printing.toQuote '[' = '[' := by decide
  rw [hopen, List.erase_cons_head]
  rfl

/-! ## The lines -/

theorem rdropWhile_cons_of_neg {f : Char → Bool} {c : Char} (hc : ¬ f c = true) (l : List Char) :
    (c :: l).rdropWhile f = c :: l.rdropWhile f := by
  induction l using List.reverseRecOn with
  | nil => rw [List.rdropWhile_singleton, if_neg hc, List.rdropWhile_nil]
  | append_singleton l d ih =>
    by_cases hd : f d = true
    · rw [← List.cons_append, List.rdropWhile_concat_pos _ _ _ hd, List.rdropWhile_concat_pos _ _ _ hd, ih]
    · rw [← List.cons_append, List.rdropWhile_concat_neg _ _ _ hd, List.rdropWhile_concat_neg _ _ _ hd,
        List.cons_append]

namespace Python

variable (h : Python t p)

include h

theorem space_of_plain {c : Char} (hc : p.printable c = true) (hblank : c ≠ ' ') : t.space c = false := by
  rw [Bool.eq_false_iff]
  intro hspace
  exact hblank (h.space_printable c hc hspace)

theorem space_bracket : t.space '[' = false :=
  h.space_of_plain (h.printable_ascii '[' (by decide) (by decide)) (by decide)

/-- Quotes and a blank in front do not change what is left of a line. -/
theorem cleanLine_quoted {q q' : List Char} (hq : q = [] ∨ q = [' ']) (hq' : q' = [] ∨ q' = [quotationMark, ']'])
    (e : List Char) : cleanLine t (q ++ quotationMark :: (e ++ q')) = cleanLine t e := by
  have hend : (e ++ q').filter (fun c => !(c = quotationMark || c = ']')) =
      e.filter fun c => !(c = quotationMark || c = ']') := by
    rw [List.filter_append]
    rcases hq' with rfl | rfl
    · simp
    · simp
  have hfilter : (q ++ quotationMark :: (e ++ q')).filter (fun c => !(c = quotationMark || c = ']')) =
      q ++ e.filter fun c => !(c = quotationMark || c = ']') := by
    rw [List.filter_append, List.filter_cons_of_neg (by simp), hend]
    rcases hq with rfl | rfl
    · rfl
    · rfl
  unfold cleanLine
  rw [hfilter]
  rcases hq with rfl | rfl
  · rfl
  · unfold strip
    rw [List.singleton_append, List.dropWhile_cons_of_pos h.space_blank]

/-- But for the comma, a line of coordinates has the characters of these. -/
theorem coord_chars (l : CoordLine t p) {c : Char} (hc : c ∈ l.line) :
    p.printable c = true ∧ c ∉ [' ', '[', ']', '\\', apostrophe, quotationMark] := by
  have hc : c ∈ l.lat ++ l.lon ∨ c = ',' := by
    simp only [CoordLine.line, List.mem_append, List.mem_cons] at hc ⊢
    tauto
  rcases hc with hc | rfl
  · obtain ⟨hprintable, hplain⟩ := l.plain c hc
    refine ⟨hprintable, ?_⟩
    simp only [List.mem_cons, not_or] at hplain ⊢
    exact ⟨hplain.1, hplain.2.2⟩
  · exact ⟨h.printable_ascii ',' (by decide) (by decide), by decide⟩

theorem cleanLine_coord (l : CoordLine t p) : cleanLine t l.line = l.line := by
  have hchars : ∀ c ∈ l.line, t.space c = false ∧ c ≠ quotationMark ∧ c ≠ ']' := by
    intro c hc
    obtain ⟨hprintable, hplain⟩ := h.coord_chars l hc
    simp only [List.mem_cons, not_or] at hplain
    exact ⟨h.space_of_plain hprintable hplain.1, hplain.2.2.2.2.2.1, hplain.2.2.1⟩
  have hfilter : l.line.filter (fun c => !(c = quotationMark || c = ']')) = l.line := by
    rw [List.filter_eq_self]
    intro c hc
    simp [(hchars c hc).2]
  unfold cleanLine
  rw [hfilter]
  exact strip_blanks (p := []) (by simp) fun c hc => (hchars c hc).1

/-- The closing bracket is gone before the blanks of the name are stripped. -/
theorem cleanLine_name {name : List Char} (hname : quotationMark ∉ name ∧ ']' ∉ name) :
    cleanLine t ('[' :: (name ++ [']'])) = '[' :: name.rdropWhile t.space := by
  have hfilter : ('[' :: (name ++ [']'])).filter (fun c => !(c = quotationMark || c = ']')) = '[' :: name := by
    rw [List.filter_cons_of_pos (by decide), List.filter_append, List.filter_eq_self.mpr]
    · simp
    · intro c hc
      have hquote : c ≠ quotationMark := fun heq => hname.1 (heq ▸ hc)
      have hbracket : c ≠ ']' := fun heq => hname.2 (heq ▸ hc)
      simp [hquote, hbracket]
  unfold cleanLine strip
  rw [hfilter, List.dropWhile_cons_of_neg (by rw [h.space_bracket]; simp)]
  exact rdropWhile_cons_of_neg (by rw [h.space_bracket]; simp) name

/-- The lines of areas without quotes in their names have none either. -/
theorem lines_chars {areas : List (Submitted t p)}
    (hquotes : ∀ a ∈ areas, apostrophe ∉ a.name ∧ quotationMark ∉ a.name) :
    ∀ e ∈ areas.flatMap Submitted.lines,
      ∀ c ∈ e, p.printable c = true ∧ c ≠ '\\' ∧ c ≠ apostrophe ∧ c ≠ quotationMark := by
  have hascii := h.printable_ascii
  intro e he c hc
  obtain ⟨a, ha, he⟩ := List.mem_flatMap.mp he
  rcases List.mem_cons.mp he with rfl | he
  · have hc : c = '[' ∨ c ∈ a.name ∨ c = ']' := by simpa using hc
    rcases hc with rfl | hc | rfl
    · exact ⟨hascii '[' (by decide) (by decide), by decide, by decide, by decide⟩
    · obtain ⟨hprintable, hnot⟩ := a.printable c hc
      refine ⟨hprintable, fun heq => hnot (by simp [heq]), ?_, ?_⟩
      · exact fun heq => (hquotes a ha).1 (heq ▸ hc)
      · exact fun heq => (hquotes a ha).2 (heq ▸ hc)
    · exact ⟨hascii ']' (by decide) (by decide), by decide, by decide, by decide⟩
  · obtain ⟨l, _, rfl⟩ := List.mem_map.mp he
    obtain ⟨hprintable, hplain⟩ := h.coord_chars l hc
    simp only [List.mem_cons, not_or] at hplain
    exact ⟨hprintable, hplain.2.2.2.1, hplain.2.2.2.2.1, hplain.2.2.2.2.2.1⟩

end Python

/-! ## Reading the lines back -/

theorem readCoord_line (l : CoordLine t p) : readCoord t l.line = some l.coord := by
  have hcomma : ',' ∉ l.lat ∧ ',' ∉ l.lon := by
    constructor
    · exact fun hc => (l.plain ',' (List.mem_append_left _ hc)).2 (by simp)
    · exact fun hc => (l.plain ',' (List.mem_append_right _ hc)).2 (by simp)
  unfold readCoord CoordLine.line
  rw [List.splitOn_append_cons_self, List.splitOn_eq_singleton hcomma.1, List.splitOn_eq_singleton hcomma.2]
  simp only [List.cons_append, List.nil_append, l.reads.1, l.reads.2, Option.bind_eq_bind, Option.bind_some]

theorem line_cons (l : CoordLine t p) : ∃ c rest, l.line = c :: rest ∧ c ≠ ',' ∧ c ≠ '[' := by
  obtain ⟨c, rest, hlat⟩ := List.exists_cons_of_ne_nil l.nonempty
  have hplain := (l.plain c (by rw [hlat]; simp)).2
  refine ⟨c, rest ++ ',' :: l.lon, by rw [CoordLine.line, hlat, List.cons_append], ?_, ?_⟩
  · rintro rfl
    simp at hplain
  · rintro rfl
    simp at hplain

variable {excluded : Bool} {fenceFallback : Option (List Char)}

/-- The coordinates of an area go to the area that was met last. -/
theorem foldlM_coords (geofences : List (Area K)) (name : List Char) (polygon : List (Coord K))
    (coords : List (CoordLine t p)) :
    (coords.map CoordLine.line).foldlM (Parse.line t excluded fenceFallback)
        ⟨geofences ++ [⟨excluded, name, polygon⟩], false⟩ =
      some ⟨geofences ++ [⟨excluded, name, polygon ++ coords.map CoordLine.coord⟩], false⟩ := by
  induction coords generalizing polygon with
  | nil => simp
  | cons l coords ih =>
    have hline : Parse.line t excluded fenceFallback ⟨geofences ++ [⟨excluded, name, polygon⟩], false⟩ l.line =
        some ⟨geofences ++ [⟨excluded, name, polygon ++ [l.coord]⟩], false⟩ := by
      obtain ⟨c, rest, hcons, _, hbracket⟩ := line_cons l
      have hread := readCoord_line l
      rw [hcons] at hread ⊢
      simp [Parse.line, hbracket, hread, appendCoord]
    rw [List.map_cons, List.foldlM_cons, hline]
    show List.foldlM _ _ _ = _
    rw [ih]
    simp

/-- The lines of areas are read as these, with the names that the lines have. -/
theorem foldlM_areas (excluded : Bool) (fenceFallback : Option (List Char)) (areas : List (Submitted t p))
    (cut : Submitted t p → List Char) (hcut : ∀ a ∈ areas, '[' ∉ cut a ∧ ']' ∉ cut a) (s : Parse K) :
    ∃ firstLine, (areas.flatMap fun a => ('[' :: cut a) :: a.coords.map CoordLine.line).foldlM
        (Parse.line t excluded fenceFallback) s =
      some ⟨s.geofences ++ areas.map fun a => ⟨excluded, cut a, a.coords.map CoordLine.coord⟩, firstLine⟩ := by
  induction areas generalizing s with
  | nil => exact ⟨s.firstLine, by simp⟩
  | cons a areas ih =>
    obtain ⟨hopen, hclose⟩ := hcut a List.mem_cons_self
    have hname : ('[' :: cut a).filter (fun c => !(c = '[' || c = ']')) = cut a := by
      rw [List.filter_cons_of_neg (by simp), List.filter_eq_self]
      intro c hc
      have hc1 : c ≠ '[' := fun heq => hopen (heq ▸ hc)
      have hc2 : c ≠ ']' := fun heq => hclose (heq ▸ hc)
      simp [hc1, hc2]
    have hline : Parse.line t excluded fenceFallback s ('[' :: cut a) =
        some ⟨s.geofences ++ [⟨excluded, cut a, []⟩], false⟩ := by
      simp only [Parse.line, if_true, hname]
    obtain ⟨firstLine, hrest⟩ := ih (fun b hb => hcut b (List.mem_cons_of_mem a hb))
      ⟨s.geofences ++ [⟨excluded, cut a, a.coords.map CoordLine.coord⟩], false⟩
    refine ⟨firstLine, ?_⟩
    rw [List.flatMap_cons, List.foldlM_append, List.foldlM_cons, hline]
    show (List.foldlM _ _ _ >>= _) = _
    rw [foldlM_coords, List.nil_append]
    show List.foldlM _ _ _ = _
    rw [hrest]
    simp

/-- Without quotes in the names everything is read back but the blanks at the end of a name. -/
theorem parseGeofencesFile_stored (h : Python t p) (dbEntry : SettingsGeofence) {key : String}
    (hkey : key = "fence_data_raw" ∨ key = "fence_data") (areas : List (Submitted t p))
    (hquotes : ∀ a ∈ areas, apostrophe ∉ a.name ∧ quotationMark ∉ a.name) :
    parseGeofencesFile t (some (p.handleAdditionalKeys dbEntry key (areas.flatMap Submitted.lines)).1) excluded
        fenceFallback =
      some (areas.map fun a => ⟨excluded, a.name.rdropWhile t.space, a.coords.map CoordLine.coord⟩) := by
  have hchars := h.lines_chars hquotes
  have hlines : (areas.flatMap Submitted.lines).map (cleanLine t) =
      areas.flatMap fun a => ('[' :: a.name.rdropWhile t.space) :: a.coords.map CoordLine.line := by
    rw [List.map_flatMap]
    apply List.flatMap_congr
    intro a ha
    have hclose : ']' ∉ a.name := fun hc => (a.printable _ hc).2 (by simp)
    have hcoords : a.coords.map (fun l => cleanLine t l.line) = a.coords.map CoordLine.line :=
      List.map_congr_left fun l _ => h.cleanLine_coord l
    rw [Submitted.lines, List.map_cons, List.map_map, h.cleanLine_name ⟨(hquotes a ha).2, hclose⟩]
    exact congrArg _ hcoords
  -- What is left of a name is a part of it, and has no brackets.
  have hcut : ∀ a ∈ areas, '[' ∉ a.name.rdropWhile t.space ∧ ']' ∉ a.name.rdropWhile t.space := by
    intro a _
    constructor
    · exact fun hc => (a.printable _ ((List.rdropWhile_prefix t.space _).subset hc)).2 (by simp)
    · exact fun hc => (a.printable _ ((List.rdropWhile_prefix t.space _).subset hc)).2 (by simp)
  obtain ⟨firstLine, hfold⟩ := foldlM_areas excluded fenceFallback areas
    (fun a => a.name.rdropWhile t.space) hcut ⟨[], true⟩
  unfold parseGeofencesFile Printing.handleAdditionalKeys
  simp only [if_pos hkey, stored_plain hchars]
  cases areas with
  | nil =>
    have hsplit : splitPair quotationMark ',' (List.intercalate [',', ' '] (([] : List (List Char)).map quoted) ++ [']']) =
        [[']']] := by
      decide
    rw [List.flatMap_nil, hsplit]
    rfl
  | cons a areas =>
    have hsplit := lines_quoted (f := cleanLine t) (g := cleanLine t) (p := []) ('[' :: (a.name ++ [']']))
      (a.coords.map CoordLine.line ++ areas.flatMap Submitted.lines) (by simp) ?_ ?_
    · have hall : (a :: areas).flatMap Submitted.lines =
          ('[' :: (a.name ++ [']'])) :: (a.coords.map CoordLine.line ++ areas.flatMap Submitted.lines) := rfl
      rw [← hall, hlines, List.nil_append] at hsplit
      rw [hsplit, hfold]
      simp
    · intro e he
      have he : e ∈ (a :: areas).flatMap Submitted.lines := he
      refine ⟨fun hc => (hchars e he _ hc).2.2.2 rfl, ?_⟩
      obtain ⟨b, _, he⟩ := List.mem_flatMap.mp he
      rcases List.mem_cons.mp he with rfl | he
      · exact ⟨'[', _, rfl, by decide⟩
      · obtain ⟨l, _, rfl⟩ := List.mem_map.mp he
        obtain ⟨c, rest, hcons, hcomma, _⟩ := line_cons l
        exact ⟨c, rest, hcons, hcomma⟩
    · intro e _ q q' hq hq'
      exact h.cleanLine_quoted hq hq' e

/-! ## Quotes -/

/-- Past the first line, with no quote in a name. -/
def Parse.Plain (s : Parse K) : Prop :=
  s.firstLine = false ∧ ∀ area ∈ s.geofences, apostrophe ∉ area.name ∧ quotationMark ∉ area.name

theorem names_appendCoord {geofences geofences' : List (Area K)} {coord : Coord K}
    (h : appendCoord geofences coord = some geofences') {area : Area K} (harea : area ∈ geofences') :
    ∃ old ∈ geofences, area.name = old.name := by
  obtain ⟨last, hlast, rfl⟩ := Option.map_eq_some_iff.mp h
  rcases List.mem_append.mp harea with harea | harea
  · exact ⟨area, (List.dropLast_subset _) harea, rfl⟩
  · rw [List.mem_singleton.mp harea]
    exact ⟨last, List.mem_of_getLast? hlast, rfl⟩

/-- A line without quotes gives no name with quotes, if it is no coordinate without an area. -/
theorem Parse.Plain.line {s s' : Parse K} {line : List Char} (hline : apostrophe ∉ line ∧ quotationMark ∉ line)
    (hs : s.Plain ∨ s.geofences = [] ∧ ∃ rest, line = '[' :: rest)
    (h : Parse.line t excluded fenceFallback s line = some s') : s'.Plain := by
  have hnames : ∀ area ∈ s.geofences, apostrophe ∉ area.name ∧ quotationMark ∉ area.name := by
    rcases hs with hs | ⟨hempty, _⟩
    · exact hs.2
    · simp [hempty]
  cases line with
  | nil =>
    obtain rfl : s = s' := Option.some.inj h
    exact hs.resolve_right (by simp)
  | cons c rest =>
    simp only [Parse.line] at h
    split at h
    · obtain rfl := Option.some.inj h
      refine ⟨rfl, ?_⟩
      intro area harea
      rcases List.mem_append.mp harea with harea | harea
      · exact hnames area harea
      · rw [List.mem_singleton.mp harea]
        exact ⟨fun hc => hline.1 (List.mem_filter.mp hc).1, fun hc => hline.2 (List.mem_filter.mp hc).1⟩
    · next hbracket =>
      have hs : s.Plain := by
        refine hs.resolve_right ?_
        rintro ⟨_, rest', heq⟩
        exact hbracket (List.cons.inj heq).1
      rw [if_neg (by simp [hs.1])] at h
      obtain ⟨coord, _, h⟩ := Option.bind_eq_some_iff.mp h
      obtain ⟨geofences, happend, h⟩ := Option.bind_eq_some_iff.mp h
      obtain rfl := Option.some.inj h
      refine ⟨hs.1, ?_⟩
      intro area harea
      obtain ⟨old, hold, heq⟩ := names_appendCoord happend harea
      rw [heq]
      exact hs.2 old hold

theorem Parse.Plain.foldlM {s s' : Parse K} {lines : List (List Char)} (hs : s.Plain)
    (hlines : ∀ line ∈ lines, apostrophe ∉ line ∧ quotationMark ∉ line)
    (h : lines.foldlM (Parse.line t excluded fenceFallback) s = some s') : s'.Plain := by
  induction lines generalizing s with
  | nil =>
    obtain rfl : s = s' := Option.some.inj h
    exact hs
  | cons line lines ih =>
    rw [List.foldlM_cons] at h
    obtain ⟨s₁, hline, h⟩ := Option.bind_eq_some_iff.mp h
    exact ih (Parse.Plain.line (hlines line List.mem_cons_self) (.inl hs) hline)
      (fun l hl => hlines l (List.mem_cons_of_mem _ hl)) h

theorem mem_of_mem_splitPair {a b c : Char} {s piece : List Char} (hpiece : piece ∈ splitPair a b s)
    (hc : c ∈ piece) : c ∈ s := by
  fun_induction splitPair a b s generalizing piece with
  | case1 => simp_all
  | case2 d => simp_all
  | case3 d e rest hpair ih =>
    rcases List.mem_cons.mp hpiece with rfl | hpiece
    · simp at hc
    · exact List.mem_cons_of_mem _ (List.mem_cons_of_mem _ (ih hpiece hc))
  | case4 d e rest hpair hnil ih => exact absurd hnil (splitPair_ne_nil a b _)
  | case5 d e rest hpair first lines hcons ih =>
    rw [hcons] at ih
    rcases List.mem_cons.mp hpiece with rfl | hpiece
    · rcases List.mem_cons.mp hc with rfl | hc
      · exact List.mem_cons_self
      · exact List.mem_cons_of_mem _ (ih List.mem_cons_self hc)
    · exact List.mem_cons_of_mem _ (ih (List.mem_cons_of_mem _ hpiece) hc)

theorem mem_of_mem_cleanLine {c : Char} {line : List Char} (hc : c ∈ cleanLine t line) :
    c ∈ line ∧ c ≠ quotationMark := by
  have hfilter := (List.dropWhile_suffix _).subset ((List.rdropWhile_prefix t.space _).subset hc)
  obtain ⟨hline, hquote⟩ := List.mem_filter.mp hfilter
  exact ⟨hline, by rintro rfl; simp at hquote⟩

theorem intercalate_cons (sep first : List Char) (texts : List (List Char)) :
    ∃ rest, List.intercalate sep (first :: texts) = first ++ rest := by
  cases texts with
  | nil => exact ⟨[], by simp⟩
  | cons e texts => exact ⟨sep ++ List.intercalate sep (e :: texts), by rw [List.intercalate_cons_cons, List.append_assoc]⟩

/-- What is stored begins with the bracket of a name, after the first bracket and a quote. -/
theorem stored_cons (h : Python t p) (a : Submitted t p) (areas : List (Submitted t p)) :
    ∃ rest, ((p.strList ((a :: areas).flatMap Submitted.lines)).map Printing.toQuote).erase '[' =
      quotationMark :: '[' :: rest := by
  have hbracket : ∀ quote, quote = quotationMark ∨ quote = apostrophe → p.reprChar quote '[' = ['['] := by
    intro quote hquote
    have hprintable := h.printable_ascii '[' (by decide) (by decide)
    have hne : '[' ≠ quote := by
      rcases hquote with rfl | rfl
      · decide
      · decide
    simp [Printing.reprChar, hne, hprintable]
  have hrepr : ∀ e, ∃ rest, (p.reprText ('[' :: e)).map Printing.toQuote = quotationMark :: '[' :: rest := by
    intro e
    have hopen : Printing.toQuote '[' = '[' := by decide
    unfold Printing.reprText
    split
    · have hquote : Printing.toQuote quotationMark = quotationMark := by decide
      exact ⟨_, by simp only [List.flatMap_cons, hbracket _ (.inl rfl), List.cons_append, List.nil_append, List.map_cons,
        hquote, hopen]; rfl⟩
    · have hquote : Printing.toQuote apostrophe = quotationMark := by decide
      exact ⟨_, by simp only [List.flatMap_cons, hbracket _ (.inr rfl), List.cons_append, List.nil_append, List.map_cons,
        hquote, hopen]; rfl⟩
  obtain ⟨rest, hrest⟩ := hrepr (a.name ++ [']'])
  have hlist : (((a :: areas).flatMap Submitted.lines).map p.reprText).map (·.map Printing.toQuote) =
      (quotationMark :: '[' :: rest) ::
        ((a.coords.map CoordLine.line ++ areas.flatMap Submitted.lines).map p.reprText).map (·.map Printing.toQuote) :=
    congrArg (· :: _) hrest
  have hopen : Printing.toQuote '[' = '[' := by decide
  unfold Printing.strList
  rw [List.map_cons, hopen, List.erase_cons_head, List.map_append, map_intercalate, hlist]
  obtain ⟨more, hmore⟩ := intercalate_cons ([',', ' '].map Printing.toQuote) (quotationMark :: '[' :: rest)
    (((a.coords.map CoordLine.line ++ areas.flatMap Submitted.lines).map p.reprText).map (·.map Printing.toQuote))
  rw [hmore]
  exact ⟨_, rfl⟩

/-- A text without apostrophes has lines without quotes of either kind. -/
theorem cleaned_plain {text : List Char} (htext : apostrophe ∉ text) :
    ∀ line ∈ (splitPair quotationMark ',' text).map (cleanLine t), apostrophe ∉ line ∧ quotationMark ∉ line := by
  intro line hline
  obtain ⟨piece, hpiece, rfl⟩ := List.mem_map.mp hline
  constructor
  · exact fun hc => htext (mem_of_mem_splitPair hpiece (mem_of_mem_cleanLine hc).1)
  · exact fun hc => (mem_of_mem_cleanLine hc).2 rfl

/-- A text that begins with the bracket of a name has a line that does. -/
theorem cleaned_cons (h : Python t p) (rest : List Char) :
    ∃ x lines, (splitPair quotationMark ',' (quotationMark :: '[' :: rest)).map (cleanLine t) =
      ('[' :: x) :: lines := by
  have hfirst : splitPair quotationMark ',' (quotationMark :: '[' :: rest) =
      (splitPair quotationMark ',' rest).modifyHead fun first => quotationMark :: '[' :: first := by
    rw [splitPair_cons (by simp), splitPair_cons fun rest' heq => absurd (List.cons.inj heq).1 (by decide)]
    cases splitPair quotationMark ',' rest with
    | nil => rfl
    | cons first lines => rfl
  rw [hfirst]
  cases hsplit : splitPair quotationMark ',' rest with
  | nil => exact absurd hsplit (splitPair_ne_nil _ _ _)
  | cons first lines =>
    rw [List.modifyHead_cons, List.map_cons]
    -- The quote is taken off; the bracket is no blank, so that nothing else in front is.
    have hbracket : ∃ x, cleanLine t (quotationMark :: '[' :: first) = '[' :: x := by
      unfold cleanLine strip
      rw [List.filter_cons_of_neg (by simp), List.filter_cons_of_pos (by decide),
        List.dropWhile_cons_of_neg (by rw [h.space_bracket]; simp)]
      exact ⟨_, rdropWhile_cons_of_neg (by rw [h.space_bracket]; simp) _⟩
    obtain ⟨x, hx⟩ := hbracket
    exact ⟨x, _, by rw [hx]⟩

/-- **No name that is read has an apostrophe or a quote.** -/
theorem names_plain (h : Python t p) (dbEntry : SettingsGeofence) {key : String}
    (hkey : key = "fence_data_raw" ∨ key = "fence_data") {areas : List (Submitted t p)} {read : List (Area K)}
    (hread : parseGeofencesFile t (some (p.handleAdditionalKeys dbEntry key (areas.flatMap Submitted.lines)).1) excluded
      fenceFallback = some read) (hne : areas ≠ []) :
    ∀ area ∈ read, apostrophe ∉ area.name ∧ quotationMark ∉ area.name := by
  obtain ⟨a, areas, rfl⟩ := List.exists_cons_of_ne_nil hne
  obtain ⟨rest, hrest⟩ := stored_cons h a areas
  unfold parseGeofencesFile Printing.handleAdditionalKeys at hread
  simp only [if_pos hkey] at hread
  obtain ⟨s, hfold, hs⟩ := Option.bind_eq_some_iff.mp hread
  obtain rfl := Option.some.inj hs
  have hlines : ∀ line ∈ (splitPair quotationMark ',' (((p.strList ((a :: areas).flatMap Submitted.lines)).map
      Printing.toQuote).erase '[')).map (cleanLine t), apostrophe ∉ line ∧ quotationMark ∉ line :=
    cleaned_plain fun hc => apostrophe_notMem_toQuote _ (List.mem_of_mem_erase hc)
  obtain ⟨x, lines, hcleaned⟩ := cleaned_cons h rest
  rw [hrest, hcleaned] at hfold hlines
  -- The first line opens an area, and from there on `Plain` is kept.
  rw [List.foldlM_cons] at hfold
  obtain ⟨s₁, hline, hfold⟩ := Option.bind_eq_some_iff.mp hfold
  have hplain : s₁.Plain := Parse.Plain.line (hlines _ List.mem_cons_self) (.inr ⟨rfl, x, rfl⟩) hline
  exact (hplain.foldlM (fun line hl => hlines line (List.mem_cons_of_mem _ hl)) hfold).2

/-! ## The round trip -/

theorem rdropWhile_name_iff (h : Python t p) (a : Submitted t p) :
    a.name.rdropWhile t.space = a.name ↔ a.name.getLast? ≠ some ' ' := by
  rw [List.rdropWhile_eq_self_iff]
  constructor
  · intro hlast heq
    have hne : a.name ≠ [] := by
      rintro hnil
      simp [hnil] at heq
    rw [List.getLast?_eq_some_getLast hne] at heq
    apply hlast hne
    rw [Option.some.inj heq]
    exact h.space_blank
  · intro hlast hne hspace
    apply hlast
    rw [List.getLast?_eq_some_getLast hne]
    exact congrArg some (h.space_printable _ (a.printable _ (List.getLast_mem hne)).1 hspace)

/-- Submitted areas are read back as they were exactly if every name keeps what it is: it has neither an apostrophe
nor a quote, and does not end with a blank. -/
theorem parseGeofencesFile_stored_iff (h : Python t p) (dbEntry : SettingsGeofence) {key : String}
    (hkey : key = "fence_data_raw" ∨ key = "fence_data") (areas : List (Submitted t p)) (excluded : Bool)
    (fenceFallback : Option (List Char)) :
    parseGeofencesFile t (some (p.handleAdditionalKeys dbEntry key (areas.flatMap Submitted.lines)).1) excluded
        fenceFallback = some (areas.map fun a => a.area excluded) ↔
      ∀ a ∈ areas, a.Keeps := by
  constructor
  · intro hread
    have hquotes : ∀ a ∈ areas, apostrophe ∉ a.name ∧ quotationMark ∉ a.name := by
      intro a ha
      exact names_plain h dbEntry hkey hread (List.ne_nil_of_mem ha) (a.area excluded) (List.mem_map_of_mem ha)
    rw [parseGeofencesFile_stored h dbEntry hkey areas hquotes] at hread
    have hsame := List.map_inj_left.mp (Option.some.inj hread)
    intro a ha
    have hname : a.name.rdropWhile t.space = a.name := congrArg Area.name (hsame a ha)
    exact ⟨(hquotes a ha).1, (hquotes a ha).2, (rdropWhile_name_iff h a).mp hname⟩
  · intro hkeeps
    rw [parseGeofencesFile_stored h dbEntry hkey areas fun a ha => ⟨(hkeeps a ha).1, (hkeeps a ha).2.1⟩]
    apply congrArg some
    apply List.map_congr_left
    intro a ha
    rw [(rdropWhile_name_iff h a).mpr (hkeeps a ha).2.2]
    rfl

/-- `repr` on ASCII. -/
def ascii : Printing := ⟨fun c => 32 ≤ c.toNat && c.toNat < 127, fun c => [c]⟩

theorem halves_python : Python halves ascii where
  space_blank := rfl
  space_printable := fun c _ hc => of_decide_eq_true hc
  printable_ascii := fun c h32 h127 => by simp [ascii, h32, h127]

def corner : CoordLine halves ascii where
  lat := ['0', '.', '5']
  lon := ['-', '2', '.', '0']
  coord := ⟨1 / 2, -2⟩
  reads := ⟨rfl, rfl⟩
  nonempty := by simp
  plain := by
    intro c hc
    simp only [List.cons_append, List.nil_append, List.mem_cons, List.not_mem_nil, or_false] at hc
    rcases hc with rfl | rfl | rfl | rfl | rfl | rfl | rfl <;> decide

def oppositeCorner : CoordLine halves ascii where
  lat := ['-', '2', '.', '0']
  lon := ['0', '.', '5']
  coord := ⟨-2, 1 / 2⟩
  reads := ⟨rfl, rfl⟩
  nonempty := by simp
  plain := by
    intro c hc
    simp only [List.cons_append, List.nil_append, List.mem_cons, List.not_mem_nil, or_false] at hc
    rcases hc with rfl | rfl | rfl | rfl | rfl | rfl | rfl <;> decide

def park : Submitted halves ascii where
  name := ['P', 'a', 'r', 'k']
  coords := [corner, oppositeCorner]
  printable := by
    intro c hc
    simp only [List.mem_cons, List.not_mem_nil, or_false] at hc
    rcases hc with rfl | rfl | rfl | rfl <;> decide
  nonempty := by simp

def oldTown : Submitted halves ascii where
  name := ['O', 'l', 'd', ' ', 't', 'o', 'w', 'n']
  coords := [oppositeCorner, corner, oppositeCorner]
  printable := by
    intro c hc
    simp only [List.mem_cons, List.not_mem_nil, or_false] at hc
    rcases hc with rfl | rfl | rfl | rfl | rfl | rfl | rfl | rfl <;> decide
  nonempty := by simp

/-- Two areas come back as they were submitted. -/
theorem parseGeofencesFile_stored_iff_park :
    parseGeofencesFile halves
        (some (ascii.handleAdditionalKeys ⟨1, []⟩ "fence_data" ([park, oldTown].flatMap Submitted.lines)).1) false none =
      some [⟨false, "Park".toList, [⟨1 / 2, -2⟩, ⟨-2, 1 / 2⟩]⟩,
        ⟨false, "Old town".toList, [⟨-2, 1 / 2⟩, ⟨1 / 2, -2⟩, ⟨-2, 1 / 2⟩]⟩] := by
  refine (parseGeofencesFile_stored_iff halves_python ⟨1, []⟩ (.inr rfl) [park, oldTown] false none).mpr ?_
  intro a ha
  simp only [List.mem_cons, List.not_mem_nil, or_false] at ha
  rcases ha with rfl | rfl <;> exact ⟨by decide, by decide, by decide⟩

def joes : Submitted halves ascii where
  name := ['J', 'o', 'e', apostrophe, 's']
  coords := [corner]
  printable := by
    intro c hc
    simp only [List.mem_cons, List.not_mem_nil, or_false] at hc
    rcases hc with rfl | rfl | rfl | rfl | rfl <;> decide
  nonempty := by simp

/-- `Joe's` comes back as `Joes`. -/
theorem parseGeofencesFile_joes :
    parseGeofencesFile halves (some (ascii.handleAdditionalKeys ⟨1, []⟩ "fence_data" ([joes].flatMap Submitted.lines)).1)
        false none = some [⟨false, ['J', 'o', 'e', 's'], [⟨1 / 2, -2⟩]⟩] ∧
      parseGeofencesFile halves (some (ascii.handleAdditionalKeys ⟨1, []⟩ "fence_data" ([joes].flatMap Submitted.lines)).1)
        false none ≠ some ([joes].map fun a => a.area false) := by
  have hread : parseGeofencesFile halves
      (some (ascii.handleAdditionalKeys ⟨1, []⟩ "fence_data" ([joes].flatMap Submitted.lines)).1) false none =
        some [⟨false, ['J', 'o', 'e', 's'], [⟨1 / 2, -2⟩]⟩] := by
    rfl
  refine ⟨hread, ?_⟩
  rw [hread]
  decide

end MapADroid.Geofence
