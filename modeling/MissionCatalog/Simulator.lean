import MissionCatalog.Database.Build

/-!
A small catalog for demonstrations: a simulated spacecraft with telemetry of power, attitude and mode,
a data handling subsystem, and a payload that is declared but still empty.
-/
namespace MissionCatalog.Simulator

def instanceName : String := "simulator"

def plain (name : String) : Head := ⟨name, none, none, []⟩

def described (name description : String) : Head := ⟨name, some description, none, []⟩

/-- A head with an alias that operators use. -/
def aliased (h : Head) (name : String) : Head :=
  { h with aliases := [⟨name, some "MDB:OPS Name"⟩] }

def member (name : String) (type : DataType) : Member := ⟨name, none, type⟩

def telemetered (head : Head) (type : String) : MemberDefinition .parameter :=
  ⟨head, ⟨some type, some .telemetered⟩⟩

def derivedParameter (head : Head) (type : String) : MemberDefinition .parameter :=
  ⟨head, ⟨some type, some .derived⟩⟩

def concrete (head : Head) (base : String) (arguments : List Argument) :
    MemberDefinition .command :=
  ⟨head, ⟨some base, false, none, arguments⟩⟩

def parameterTypes : List (MemberDefinition .parameterType) :=
  [⟨plain "voltage_t", ⟨some "V", .float 32⟩⟩,
    ⟨plain "temperature_t", ⟨some "degC", .float 32⟩⟩,
    ⟨plain "mode_t", ⟨none, .enumeration [⟨0, "SAFE"⟩, ⟨1, "NOMINAL"⟩, ⟨2, "SCIENCE"⟩]⟩⟩,
    ⟨described "position_t" "Position in the orbital frame",
      ⟨none, .aggregate [member "latitude" (.float 64), member "longitude" (.float 64),
        member "altitude" (.float 64)]⟩⟩,
    ⟨plain "battery_history_t",
      ⟨none, .array 1 (.aggregate [member "voltage" (.float 32),
        member "temperature" (.float 32)])⟩⟩]

def parameters : List (MemberDefinition .parameter) :=
  [telemetered (aliased (described "BatteryVoltage1" "Voltage of battery 1")
      "SIMULATOR_BatteryVoltage1") "voltage_t",
    telemetered (aliased (described "BatteryVoltage2" "Voltage of battery 2")
      "SIMULATOR_BatteryVoltage2") "voltage_t",
    telemetered (described "BatteryTemperature1" "Temperature of battery 1") "temperature_t",
    derivedParameter (described "BatteryHistory" "Last battery samples") "battery_history_t",
    telemetered (aliased (plain "Position") "SIMULATOR_Position") "position_t",
    telemetered (described "Mode" "Spacecraft operating mode") "mode_t",
    ⟨described "VoltageLimit" "Minimum allowed battery voltage",
      ⟨some "voltage_t", some .constant⟩⟩,
    derivedParameter (described "AverageVoltage" "Mean voltage of both batteries") "voltage_t"]

def containers : List (MemberDefinition .container) :=
  [⟨described "Telemetry" "Top-level telemetry packet",
      ⟨none, true, none, [.container "Power", .container "Attitude", .parameter "Mode"]⟩⟩,
    ⟨plain "Power",
      ⟨some "Telemetry", false, some 96,
        [.parameter "BatteryVoltage1", .parameter "BatteryVoltage2",
          .parameter "BatteryTemperature1"]⟩⟩,
    ⟨plain "Attitude", ⟨some "Telemetry", false, none, [.parameter "Position"]⟩⟩]

def commands : List (MemberDefinition .command) :=
  [⟨described "SIM_TC" "Base of simulator commands", ⟨none, true, none, []⟩⟩,
    ⟨described "SWITCH_VOLTAGE_ON" "Switch a battery on",
      ⟨some "SIM_TC", false, some "critical", [⟨"voltage_num", none, "uint8", some "1"⟩]⟩⟩,
    concrete (described "SWITCH_VOLTAGE_OFF" "Switch a battery off") "SIM_TC"
      [⟨"voltage_num", none, "uint8", none⟩],
    concrete (plain "SET_MODE") "SIM_TC" [⟨"mode", none, "mode_t", none⟩]]

def algorithms : List (MemberDefinition .algorithm) :=
  [⟨plain "AverageVoltageAlgorithm",
      ⟨.global, some "java-expression",
        some ("out0.setFloatValue((in0.getEngValue().getFloatValue() + " ++
          "in1.getEngValue().getFloatValue()) / 2);"),
        ["BatteryVoltage1", "BatteryVoltage2"], ["AverageVoltage"]⟩⟩,
    ⟨described "VoltageVerifier" "Checks the commanded battery reports voltage",
      ⟨.commandVerification, none, none, ["BatteryVoltage1"], []⟩⟩]

def dataHandling : SystemDefinition where
  head := described "DHS" "Data handling subsystem"
  version := none
  parameterTypes := [⟨plain "counter_t", ⟨none, .integer false 16⟩⟩]
  parameters :=
    [telemetered (plain "PacketCounter") "counter_t",
      ⟨plain "OnboardTime", ⟨none, some .telemetered⟩⟩]
  containers := [⟨plain "Housekeeping", ⟨none, false, none, [.parameter "PacketCounter"]⟩⟩]
  commands := [concrete (plain "RESET_COUNTER") "/YSS/SIMULATOR/SIM_TC" []]
  algorithms := []
  systems := []

def payload : SystemDefinition :=
  ⟨described "PAYLOAD" "Payload subsystem", none, [], [], [], [], [], []⟩

def spacecraft : SystemDefinition where
  head := described "SIMULATOR" "Spacecraft simulator"
  version := some "1.3"
  parameterTypes := parameterTypes
  parameters := parameters
  containers := containers
  commands := commands
  algorithms := algorithms
  systems := [dataHandling, payload]

def definition : CatalogDefinition where
  name := "YSS simulator"
  version := some "1.3"
  systems := [⟨described "YSS" "Yamcs simulated spacecraft", none, [], [], [], [], [], [spacecraft]⟩]

def database : Except BuildError Database := Database.build definition

end MissionCatalog.Simulator
