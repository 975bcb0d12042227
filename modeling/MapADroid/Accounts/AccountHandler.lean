import MapADroid.Lib.Dict
import MapADroid.Location
import Mathlib.Data.List.Sort

/- `AccountHandler`: which device gets which account.

   `get_account` holds the lock of the handler while it looks for an account and writes
   the assignment; the other operations do not take the lock. A session reads and writes
   at once, when it commits, except for the one of `get_account`, of which others may
   commit between what it reads (`Action.select`) and what it writes (`Action.commit`). -/
namespace MapADroid.Accounts
open Lib

inductive LoginType where
  | google | ptc
  deriving DecidableEq, Repr

inductive BurnType where
  | ban | suspended | maintenance
  deriving DecidableEq, Repr

inductive AccountPurpose where
  | ivQuest | level | quest | iv | monRaid
  deriving DecidableEq, Repr

/-- A row of `settings_pogoauth`; times are in seconds. -/
structure SettingsPogoauth where
  instanceId : Int
  deviceId : Option Int
  loginType : LoginType
  username : String
  level : Int
  lastBurn : Option ℚ
  lastBurnType : Option BurnType
  lastSoftbanAction : Option ℚ
  lastSoftbanActionLocation : Option (Location ℚ)
  deriving DecidableEq

/-- The Google login of a row of `settings_device`. -/
structure SettingsDevice where
  gglLoginMail : Option String

/-- The instance, its devices, the arguments, and what the handler calls: the distance of two locations in
meters, and `re.search` ignoring case. -/
structure Config where
  instanceId : Int
  noRestrictAccountsToInstance : Bool
  device : Int → Option SettingsDevice
  distance : Location ℚ → Location ℚ → ℚ
  search : String → String → Bool

/-! ## What an account can be used for -/

def maintenanceCooldownHours : ℚ := 24
def minLevelRaid : Int := 8
def minLevelIv : Int := 30
def questWalkSpeedCalculated : ℚ := 1667 / 100

/-- From which distance on which speed is assumed. -/
def speeds : List (ℚ × ℚ) :=
  [(1335000, 18043 / 100), (1100000, 1762820513 / 10000000), (1020000, 1683168317 / 10000000),
    (1007000, 1712585034 / 10000000), (948000, 1663157895 / 10000000), (900000, 1648351648 / 10000000),
    (897000, 1661111111 / 10000000), (839000, 1589015152 / 10000000), (802000, 1591269841 / 10000000),
    (751000, 1526422764 / 10000000), (700000, 1515151515 / 10000000), (650000, 1463963964 / 10000000),
    (600000, 1428571429 / 10000000), (550000, 1388888889 / 10000000), (500000, 1344086022 / 10000000),
    (450000, 1293103448 / 10000000), (400000, 1234567901 / 10000000), (350000, 1166666667 / 10000000),
    (328000, 1138888889 / 10000000), (300000, 1086956522 / 10000000), (250000, 1016260163 / 10000000),
    (201000, 9054054054 / 100000000), (175000, 8578431373 / 100000000), (150000, 78125 / 1000),
    (125000, 7183908046 / 100000000), (100000, 641025641 / 10000000), (90000, 60), (80000, 5555555556 / 100000000),
    (70000, 5072463768 / 100000000), (60000, 4761904762 / 100000000), (45000, 3947368421 / 100000000),
    (40000, 350877193 / 10000000), (35000, 3240740741 / 100000000), (30000, 2941176471 / 100000000),
    (25000, 2777777778 / 100000000), (20000, 2777777778 / 100000000), (15000, 2777777778 / 100000000),
    (10000, 2380952381 / 100000000), (8000, 2666666667 / 100000000), (5000, 2234137623 / 100000000),
    (4000, 2222222222 / 100000000)]

/-- Seconds to wait, at most two hours. -/
def calculateCooldown (distance speed : ℚ) : ℚ :=
  let speed := ((speeds.find? fun t => distance ≥ t.1).map Prod.snd).getD speed
  let delayUsed := distance / speed
  if delayUsed > 7200 then 7200 else delayUsed

/-- Whether an account is burnt; `none` where an exception is raised. -/
def isBurnt (now : ℚ) (auth : SettingsPogoauth) : Option Bool :=
  match auth.lastBurnType with
  | none => some false
  | some .ban => some true
  | some .suspended => auth.lastBurn.map fun t => t + 7 * 24 * 60 * 60 > now
  | some .maintenance => auth.lastBurn.map fun t => t + maintenanceCooldownHours * 60 * 60 > now

/-- The last action that counts for the softban, and the way from there, are long enough ago. -/
def cooledDown (cfg : Config) (now : ℚ) (auth : SettingsPogoauth) (locationToScan : Option (Location ℚ)) :
    Option Bool :=
  match auth.lastSoftbanActionLocation with
  | none => some true
  | some lastActionLocation =>
    match locationToScan with
    | none => some false
    | some location =>
      let cooldownSeconds := calculateCooldown (cfg.distance lastActionLocation location) questWalkSpeedCalculated
      auth.lastSoftbanAction.map fun t => now > t + cooldownSeconds

/-- Whether an account can be used; `none` where an exception is raised. -/
def isUsableForPurpose (cfg : Config) (now : ℚ) (auth : SettingsPogoauth) (purpose : AccountPurpose)
    (locationToScan : Option (Location ℚ)) : Option Bool :=
  match purpose with
  | .monRaid => some (auth.level ≥ minLevelRaid)
  | .iv => some (auth.level ≥ minLevelIv)
  | .ivQuest => if auth.level < minLevelIv then some false else cooledDown cfg now auth locationToScan
  | .quest => if auth.level < minLevelIv then some false else cooledDown cfg now auth locationToScan
  | .level => if auth.level ≥ minLevelIv then some false else cooledDown cfg now auth locationToScan

/-! ## Looking for an account -/

/-- The arguments of `get_account`. -/
structure Request where
  deviceId : Int
  purpose : AccountPurpose
  locationToScan : Option (Location ℚ)
  deriving DecidableEq

/-- `get_avail_accounts`: the accounts of the instance that are not assigned to another device. -/
def getAvailAccounts (cfg : Config) (accounts : Dict Int SettingsPogoauth) (deviceId : Int) :
    Dict Int SettingsPogoauth :=
  accounts.filter fun _ auth =>
    (cfg.noRestrictAccountsToInstance || auth.instanceId = cfg.instanceId) &&
      (auth.deviceId = none || auth.deviceId = some deviceId)

/-- `get_assigned_to_device`. -/
def getAssignedToDevice (accounts : Dict Int SettingsPogoauth) (deviceId : Int) : Option Int :=
  (accounts.items.find? fun x => x.2.deviceId = some deviceId).map Prod.fst

/-- Not burnt, and usable for the purpose. -/
def suits (cfg : Config) (now : ℚ) (r : Request) (auth : SettingsPogoauth) : Option Bool :=
  match isBurnt now auth with
  | none => none
  | some true => some false
  | some false => isUsableForPurpose cfg now auth r.purpose r.locationToScan

/-- The Google login of the device is this account. -/
def gglOfDevice (cfg : Config) (device : SettingsDevice) (auth : SettingsPogoauth) : Bool :=
  device.gglLoginMail.getD "" ≠ "" && cfg.search auth.username (device.gglLoginMail.getD "")

def isPtcOrGglOfDevice (cfg : Config) (device : SettingsDevice) (auth : SettingsPogoauth) : Bool :=
  match auth.loginType with
  | .ptc => true
  | .google => gglOfDevice cfg device auth

/-- The account `get_account` chooses, if there is one; `none` where an exception is raised. -/
def chooseLogin (cfg : Config) (accounts : Dict Int SettingsPogoauth) (now : ℚ) (r : Request) :
    Option (Option (Int × SettingsPogoauth)) :=
  match cfg.device r.deviceId with
  | none => some none
  | some device =>
    let logins := (getAvailAccounts cfg accounts r.deviceId).items
    if logins.any fun x => suits cfg now r x.2 = none then none
    else
      let suitable := logins.filter fun x => suits cfg now r x.2 = some true
      let loginsFiltered := suitable.insertionSort fun x y => x.2.lastBurn.getD 0 ≤ y.2.lastBurn.getD 0
      match loginsFiltered.find? fun x => x.2.loginType ≠ .ptc && gglOfDevice cfg device x.2 with
      | some login => some (some login)
      | none => some (loginsFiltered.filter fun x => isPtcOrGglOfDevice cfg device x.2).head?

/-! ## The handler -/

/-- What `get_account` has read: the account it chose, and the one assigned to the device. -/
structure Selection where
  request : Request
  loginToUse : Int
  currentlyAssigned : Option Int
  deriving DecidableEq

/-- How far the call is that has the lock. -/
inductive Assigning where
  | querying (r : Request)
  | selected (sel : Selection)
  deriving DecidableEq

structure State where
  accounts : Dict Int SettingsPogoauth
  assigning : Option Assigning

inductive Action where
  /-- `get_account` acquires the lock. -/
  | lock (r : Request)
  /-- It reads the tables and chooses an account, or returns None. -/
  | select (now : ℚ)
  /-- It writes the assignment and returns the account. -/
  | commit
  /-- It ends with an exception. -/
  | raise
  | notifyLogout (deviceId : Int)
  | markBurnt (deviceId : Int) (burnType : Option BurnType) (now : ℚ)
  | setLevel (deviceId level : Int)
  | setLastSoftbanAction (deviceId timestamp : Int) (location : Location ℚ) (now : ℚ)

namespace State

/-- The `device_id` of an account written. -/
def setDevice (accounts : Dict Int SettingsPogoauth) (account : Int) (deviceId : Option Int) :
    Dict Int SettingsPogoauth :=
  accounts.modify account fun auth => { auth with deviceId }

/-- The account of a device, if it has any, written by one of the other operations. -/
def modifyAssigned (s : State) (deviceId : Int) (f : SettingsPogoauth → SettingsPogoauth) : State :=
  match getAssignedToDevice s.accounts deviceId with
  | none => s
  | some account => { s with accounts := s.accounts.modify account f }

/-- The end of `get_account`: the device gives up the account it had and gets the one chosen. -/
def assign (accounts : Dict Int SettingsPogoauth) (sel : Selection) : Dict Int SettingsPogoauth :=
  let released := match sel.currentlyAssigned with
    | none => accounts
    | some account => setDevice accounts account none
  setDevice released sel.loginToUse (some sel.request.deviceId)

/-- `SettingsPogoauthHelper.mark_burnt`, of an account of the instance. -/
def burn (cfg : Config) (burnType : Option BurnType) (now : ℚ) (auth : SettingsPogoauth) : SettingsPogoauth :=
  if cfg.noRestrictAccountsToInstance || auth.instanceId = cfg.instanceId then
    { auth with lastBurn := burnType.map fun _ => now, lastBurnType := burnType }
  else auth

def step (cfg : Config) (s : State) : Action → Option State
  | .lock r =>
    match s.assigning with
    | none => some { s with assigning := some (.querying r) }
    | some _ => none
  | .select now =>
    match s.assigning with
    | some (.querying r) =>
      match chooseLogin cfg s.accounts now r with
      | some (some login) =>
        let sel : Selection := ⟨r, login.1, getAssignedToDevice s.accounts r.deviceId⟩
        some { s with assigning := some (.selected sel) }
      | some none => some { s with assigning := none }
      | none => some { s with assigning := none }
    | _ => none
  | .commit =>
    match s.assigning with
    | some (.selected sel) => some ⟨assign s.accounts sel, none⟩
    | _ => none
  | .raise =>
    match s.assigning with
    | some _ => some { s with assigning := none }
    | none => none
  | .notifyLogout deviceId => some (s.modifyAssigned deviceId fun auth => { auth with deviceId := none })
  | .markBurnt deviceId burnType now => some (s.modifyAssigned deviceId (burn cfg burnType now))
  | .setLevel deviceId level => some (s.modifyAssigned deviceId fun auth => { auth with level })
  | .setLastSoftbanAction deviceId timestamp location now =>
    some (s.modifyAssigned deviceId fun auth =>
      { auth with
        lastSoftbanAction := some (if timestamp = 0 then now else timestamp)
        lastSoftbanActionLocation := some location })

end State

end MapADroid.Accounts
