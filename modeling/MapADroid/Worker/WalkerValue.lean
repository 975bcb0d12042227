import Mathlib.Data.List.DropRight
import Mathlib.Data.Int.Order.Basic

/- The value of a walker area: a time of day or a period of it (`routeutil.py`).

   A value is matched with its blanks taken out, but the hour and the minute of a single
   time are read from the value as it is. Which characters are digits or blanks is a
   parameter. `none` stands for a `ValueError`. -/
namespace MapADroid.Worker

/-- What Python takes as a decimal digit, with its value, and as white space. -/
structure Unicode where
  digit : Char → Option Nat
  space : Char → Bool

/-- The digits and blanks of ASCII. -/
def ascii : Unicode where
  digit c := if '0' ≤ c ∧ c ≤ '9' then some (c.toNat - 48) else none
  space c := c = ' ' ∨ c = '\n' ∨ c = '\t' ∨ c = '\r'

namespace Unicode

variable (u : Unicode)

def isDigit (c : Char) : Bool := (u.digit c).isSome

/-- The digits after one that was read; a single underscore may stand before each. -/
def digitsFrom (n : Nat) : List Char → Option Nat
  | [] => some n
  | '_' :: c :: l => (u.digit c).bind fun d => digitsFrom (10 * n + d) l
  | c :: l => (u.digit c).bind fun d => digitsFrom (10 * n + d) l

def natural : List Char → Option Nat
  | [] => none
  | c :: l => (u.digit c).bind fun d => u.digitsFrom d l

/-- `int` of a text: a sign and digits, white space around them. -/
def int (text : List Char) : Option Int :=
  match (text.dropWhile u.space).rdropWhile u.space with
  | '-' :: l => (u.natural l).map fun n => -(n : Int)
  | '+' :: l => (u.natural l).map fun n => (n : Int)
  | l => (u.natural l).map fun n => (n : Int)

/-- What follows `\d\d` at the start of the text. -/
def afterMinutes : List Char → Option (List Char)
  | c :: d :: l => if u.isDigit c && u.isDigit d then some l else none
  | _ => none

/-- What follows `\d?\d:\d\d` at the start of the text. -/
def afterTime : List Char → Option (List Char)
  | a :: b :: l =>
    if u.isDigit a then
      if b = ':' then u.afterMinutes l
      else
        match l with
        | c :: l' => if u.isDigit b && c = ':' then u.afterMinutes l' else none
        | [] => none
    else none
  | _ => none

theorem colon_mem_of_afterTime {l rest : List Char} (h : u.afterTime l = some rest) : ':' ∈ l := by
  cases l with
  | nil => cases h
  | cons a l =>
    cases l with
    | nil => cases h
    | cons b l =>
      by_cases hb : b = ':'
      · simp [hb]
      · cases l with
        | nil => simp [afterTime, hb] at h
        | cons c l =>
          by_cases hc : c = ':'
          · simp [hc]
          · simp [afterTime, hb, hc] at h

end Unicode

/-- `$`: the end, or a line break before it. -/
def atEnd (l : List Char) : Bool := l = [] || l = ['\n']

/-- The group of the pattern that a value matches. -/
inductive ValueType where
  | time | period
  deriving DecidableEq

/-- The match of `^(\d?\d:\d\d)$|^((\d?\d:\d\d)-(\d?\d:\d\d))$`. -/
def search (u : Unicode) (l : List Char) : Option ValueType :=
  match u.afterTime l with
  | none => none
  | some rest =>
    if atEnd rest then some .time
    else
      match rest with
      | '-' :: l' => if (u.afterTime l').any atEnd then some .period else none
      | _ => none

/-- `tm_now.replace(hour, minute)`, as minutes of the day, with the numbers of a split text. -/
def replaceTime (u : Unicode) (texts : List (List Char)) : Option Int :=
  match texts with
  | hour :: minute :: _ =>
    (u.int hour).bind fun h => (u.int minute).bind fun m =>
      if 0 ≤ h ∧ h < 24 ∧ 0 ≤ m ∧ m < 60 then some (60 * h + m) else none
  | _ => none

/-- `check_time_till_end`; `now` counts the microseconds of the local day. -/
def checkTimeTillEnd (u : Unicode) (now : Int) (exittime : List Char) : Option Bool :=
  (replaceTime u (exittime.splitOn ':')).map fun til => now < til * 60000000

/-- `check_time_period`: a period that ends before it starts goes over midnight. -/
def checkTimePeriod (u : Unicode) (now : Int) (period : List Char) : Option Bool :=
  match period.splitOn '-' with
  | start :: stop :: _ =>
    (replaceTime u ((start.filter (· ≠ ' ')).splitOn ':')).bind fun tmFrom =>
      (replaceTime u ((stop.filter (· ≠ ' ')).splitOn ':')).map fun tmTil =>
        let tmNow := now / 60000000
        if tmFrom > tmTil then
          if tmNow < tmFrom then tmFrom - 1440 ≤ tmNow ∧ tmNow ≤ tmTil
          else tmFrom ≤ tmNow ∧ tmNow ≤ tmTil + 1440
        else tmFrom ≤ tmNow ∧ tmNow ≤ tmTil
  | _ => none

/-- `check_walker_value_type`. -/
def checkWalkerValueType (u : Unicode) (now : Int) (value : String) : Option Bool :=
  match search u (value.toList.filter (· ≠ ' ')) with
  | some .time => checkTimeTillEnd u now value.toList
  | some .period => checkTimePeriod u now value.toList
  | none => some false

/-- A value without a colon is no time. -/
theorem checkWalkerValueType_of_notMem {u : Unicode} {now : Int} {value : String}
    (h : ':' ∉ value.toList) : checkWalkerValueType u now value = some false := by
  have hnone : u.afterTime (value.toList.filter (· ≠ ' ')) = none := by
    cases hafter : u.afterTime (value.toList.filter (· ≠ ' ')) with
    | none => rfl
    | some rest => exact absurd (List.mem_filter.mp (u.colon_mem_of_afterTime hafter)).1 h
  unfold checkWalkerValueType search
  rw [hnone]

end MapADroid.Worker
