/-
  Dates and times in the languages of the world.

  For each language: its patterns in four lengths, and its words for months,
  weekdays, the halves of the day and universal time.  A language that is not
  listed is written in the neutral form `DateText.neutral`, which puts the year
  first and numbers the months.
-/
import Phrasebook.Calendar.Pattern
import Phrasebook.Locale.Directory

set_option autoImplicit false

namespace Phrasebook.Locale

open Phrasebook.Calendar

/-- Something for each length. -/
structure ByLength where
  short : String
  medium : String
  long : String
  full : String
  deriving DecidableEq, Repr, Inhabited

/-- What is there for a length. -/
def ByLength.get (b : ByLength) : Length → String
  | .short => b.short
  | .medium => b.medium
  | .long => b.long
  | .full => b.full

/-! ## Languages -/

/-- How a language writes dates and times. -/
structure DateText where
  date : ByLength
  time : ByLength
  names : Names
  deriving DecidableEq, Repr, Inhabited

namespace DateText

/-- Clock times on twenty-four hours with two digits each. -/
def twoDigitClock : ByLength := ⟨"HH:mm", "HH:mm:ss", "HH:mm:ss z", "HH:mm:ss zzzz"⟩

/-- The form of a language whose own form is not known. -/
def neutral : DateText where
  date := ⟨"y-MM-dd", "y MMM d", "y MMMM d", "y MMMM d, EEEE"⟩
  time := twoDigitClock
  names := {
    monthsShort :=
      ["M01", "M02", "M03", "M04", "M05", "M06", "M07", "M08", "M09", "M10", "M11", "M12"]
    months :=
      ["M01", "M02", "M03", "M04", "M05", "M06", "M07", "M08", "M09", "M10", "M11", "M12"]
    weekdays := ["Mon", "Tue", "Wed", "Thu", "Fri", "Sat", "Sun"]
    morning := "AM"
    afternoon := "PM"
    utcLong := "UTC"
    utcShort := "UTC"
    gmt := "GMT" }

/-- German. -/
def german : DateText where
  date := ⟨"dd.MM.yy", "dd.MM.y", "d. MMMM y", "EEEE, d. MMMM y"⟩
  time := twoDigitClock
  names := {
    monthsShort :=
      ["Jan.", "Feb.", "März", "Apr.", "Mai", "Juni", "Juli", "Aug.", "Sept.", "Okt.", "Nov.",
       "Dez."]
    months :=
      ["Januar", "Februar", "März", "April", "Mai", "Juni", "Juli", "August", "September",
       "Oktober", "November", "Dezember"]
    weekdays := ["Montag", "Dienstag", "Mittwoch", "Donnerstag", "Freitag", "Samstag", "Sonntag"]
    morning := "AM"
    afternoon := "PM"
    utcLong := "Koordinierte Weltzeit"
    utcShort := "UTC"
    gmt := "GMT" }

/-- English. -/
def english : DateText where
  date := ⟨"M/d/yy", "MMM d, y", "MMMM d, y", "EEEE, MMMM d, y"⟩
  time := ⟨"h:mm\u202fa", "h:mm:ss\u202fa", "h:mm:ss\u202fa z", "h:mm:ss\u202fa zzzz"⟩
  names := {
    monthsShort :=
      ["Jan", "Feb", "Mar", "Apr", "May", "Jun", "Jul", "Aug", "Sep", "Oct", "Nov", "Dec"]
    months :=
      ["January", "February", "March", "April", "May", "June", "July", "August", "September",
       "October", "November", "December"]
    weekdays := ["Monday", "Tuesday", "Wednesday", "Thursday", "Friday", "Saturday", "Sunday"]
    morning := "AM"
    afternoon := "PM"
    utcLong := "Coordinated Universal Time"
    utcShort := "UTC"
    gmt := "GMT" }

/-- Spanish. -/
def spanish : DateText where
  date := ⟨"d/M/yy", "d MMM y", "d 'de' MMMM 'de' y", "EEEE, d 'de' MMMM 'de' y"⟩
  time := ⟨"H:mm", "H:mm:ss", "H:mm:ss z", "H:mm:ss (zzzz)"⟩
  names := {
    monthsShort :=
      ["ene", "feb", "mar", "abr", "may", "jun", "jul", "ago", "sept", "oct", "nov", "dic"]
    months :=
      ["enero", "febrero", "marzo", "abril", "mayo", "junio", "julio", "agosto", "septiembre",
       "octubre", "noviembre", "diciembre"]
    weekdays := ["lunes", "martes", "miércoles", "jueves", "viernes", "sábado", "domingo"]
    morning := "AM"
    afternoon := "PM"
    utcLong := "tiempo universal coordinado"
    utcShort := "UTC"
    gmt := "GMT" }

/-- French. -/
def french : DateText where
  date := ⟨"dd/MM/y", "d MMM y", "d MMMM y", "EEEE d MMMM y"⟩
  time := twoDigitClock
  names := {
    monthsShort :=
      ["janv.", "févr.", "mars", "avr.", "mai", "juin", "juil.", "août", "sept.", "oct.", "nov.",
       "déc."]
    months :=
      ["janvier", "février", "mars", "avril", "mai", "juin", "juillet", "août", "septembre",
       "octobre", "novembre", "décembre"]
    weekdays := ["lundi", "mardi", "mercredi", "jeudi", "vendredi", "samedi", "dimanche"]
    morning := "AM"
    afternoon := "PM"
    utcLong := "temps universel coordonné"
    utcShort := "TU"
    gmt := "UTC" }

/-- Japanese. -/
def japanese : DateText where
  date := ⟨"y/MM/dd", "y/MM/dd", "y年M月d日", "y年M月d日EEEE"⟩
  time := ⟨"H:mm", "H:mm:ss", "H:mm:ss z", "H時mm分ss秒 zzzz"⟩
  names := {
    monthsShort :=
      ["1月", "2月", "3月", "4月", "5月", "6月", "7月", "8月", "9月", "10月", "11月", "12月"]
    months := ["1月", "2月", "3月", "4月", "5月", "6月", "7月", "8月", "9月", "10月", "11月", "12月"]
    weekdays := ["月曜日", "火曜日", "水曜日", "木曜日", "金曜日", "土曜日", "日曜日"]
    morning := "AM"
    afternoon := "PM"
    utcLong := "協定世界時"
    utcShort := "UTC"
    gmt := "GMT" }

/-- Polish. -/
def polish : DateText where
  date := ⟨"d.MM.y", "d MMM y", "d MMMM y", "EEEE, d MMMM y"⟩
  time := twoDigitClock
  names := {
    monthsShort :=
      ["sty", "lut", "mar", "kwi", "maj", "cze", "lip", "sie", "wrz", "paź", "lis", "gru"]
    months :=
      ["stycznia", "lutego", "marca", "kwietnia", "maja", "czerwca", "lipca", "sierpnia",
       "września", "października", "listopada", "grudnia"]
    weekdays := ["poniedziałek", "wtorek", "środa", "czwartek", "piątek", "sobota", "niedziela"]
    morning := "AM"
    afternoon := "PM"
    utcLong := "uniwersalny czas koordynowany"
    utcShort := "UTC"
    gmt := "GMT" }

/-- Brazilian Portuguese. -/
def brazilian : DateText where
  date := ⟨"dd/MM/y", "d 'de' MMM 'de' y", "d 'de' MMMM 'de' y", "EEEE, d 'de' MMMM 'de' y"⟩
  time := twoDigitClock
  names := {
    monthsShort :=
      ["jan.", "fev.", "mar.", "abr.", "mai.", "jun.", "jul.", "ago.", "set.", "out.", "nov.",
       "dez."]
    months :=
      ["janeiro", "fevereiro", "março", "abril", "maio", "junho", "julho", "agosto", "setembro",
       "outubro", "novembro", "dezembro"]
    weekdays :=
      ["segunda-feira", "terça-feira", "quarta-feira", "quinta-feira", "sexta-feira", "sábado",
       "domingo"]
    morning := "AM"
    afternoon := "PM"
    utcLong := "Horário Universal Coordenado"
    utcShort := "UTC"
    gmt := "GMT" }

/-- Russian. -/
def russian : DateText where
  date := ⟨"dd.MM.y", "d MMM y\u202f'г'.", "d MMMM y\u202f'г'.", "EEEE, d MMMM y\u202f'г'."⟩
  time := twoDigitClock
  names := {
    monthsShort :=
      ["янв.", "февр.", "мар.", "апр.", "мая", "июн.", "июл.", "авг.", "сент.", "окт.", "нояб.",
       "дек."]
    months :=
      ["января", "февраля", "марта", "апреля", "мая", "июня", "июля", "августа", "сентября",
       "октября", "ноября", "декабря"]
    weekdays := ["понедельник", "вторник", "среда", "четверг", "пятница", "суббота", "воскресенье"]
    morning := "AM"
    afternoon := "PM"
    utcLong := "Всемирное координированное время"
    utcShort := "UTC"
    gmt := "GMT" }

/-- Swedish. -/
def swedish : DateText where
  date := ⟨"y-MM-dd", "d MMM y", "d MMMM y", "EEEE d MMMM y"⟩
  time := twoDigitClock
  names := {
    monthsShort :=
      ["jan.", "feb.", "mars", "apr.", "maj", "juni", "juli", "aug.", "sep.", "okt.", "nov.",
       "dec."]
    months :=
      ["januari", "februari", "mars", "april", "maj", "juni", "juli", "augusti", "september",
       "oktober", "november", "december"]
    weekdays := ["måndag", "tisdag", "onsdag", "torsdag", "fredag", "lördag", "söndag"]
    morning := "AM"
    afternoon := "PM"
    utcLong := "koordinerad universell tid"
    utcShort := "UTC"
    gmt := "GMT" }

/-- British English, which has the day first, a clock of twenty-four hours and a longer short name
for September. -/
def british : DateText where
  date := ⟨"dd/MM/y", "d MMM y", "d MMMM y", "EEEE, d MMMM y"⟩
  time := twoDigitClock
  names := { english.names with
    monthsShort :=
      ["Jan", "Feb", "Mar", "Apr", "May", "Jun", "Jul", "Aug", "Sept", "Oct", "Nov", "Dec"] }

/-- The form of each language, and of territories that have one of their own. -/
def table : List (String × DateText) :=
  [("de", german), ("en", english), ("en_GB", british), ("es", spanish), ("fr", french),
   ("ja", japanese), ("pl", polish), ("pt", brazilian), ("ru", russian), ("sv", swedish)]

end DateText

end Phrasebook.Locale
