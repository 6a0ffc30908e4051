import HeaderStamp.Header.Block
import HeaderStamp.Insertion
import HeaderStamp.Rules

namespace HeaderStamp

/-- Metadata of one directory, or of everything that no directory claims. Without notes of its own a
directory has those of the fallback. -/
structure RuleConfig where
  component : Text
  usage : Text
  notes : Option Text
deriving DecidableEq, Repr

/-- The fixed parts of a header and the files that receive one. Extensions are written without the
leading dot, and without a year the current one is meant. -/
structure HeaderConfig where
  holder : Text
  license : Text
  year : Option Text
  extensions : List Text
deriving DecidableEq, Repr

structure MarkerConfig where
  spdx : Text
  directive : Text
  altDirective : Text
  benchSuffix : Text
  testSuffixes : List Text
  benchUsage : Text
  testUsage : Text
deriving DecidableEq, Repr

/-- A whole configuration. The rules stand in the order of their directories. -/
structure Config where
  header : HeaderConfig
  markers : MarkerConfig
  fallback : RuleConfig
  rules : List (Text × RuleConfig)
deriving DecidableEq, Repr

namespace HeaderConfig

def builtin : HeaderConfig where
  holder := "Texelation contributors".toList
  license := "AGPL-3.0-or-later".toList
  year := none
  extensions := ["go".toList]

end HeaderConfig

namespace MarkerConfig

def builtin : MarkerConfig where
  spdx := "SPDX-License-Identifier".toList
  directive := "//go:build".toList
  altDirective := "// +build".toList
  benchSuffix := "_bench_test".toList
  testSuffixes := ["_test".toList, "_tests".toList]
  benchUsage := "Run via `go test -bench` to observe hot-path behaviour under load.".toList
  testUsage := "Executed during `go test` to guard against regressions.".toList

end MarkerConfig

namespace RuleConfig

def ofStrings (component usage notes : String) : RuleConfig :=
  ⟨component.toList, usage.toList, some notes.toList⟩

def builtinFallback : RuleConfig :=
  ofStrings "Texelation module"
    "Referenced within the project wherever \x7bfeature\x7d support is required."
    "Part of the Texelation AGPLv3 codebase."

def builtinRules : List (Text × RuleConfig) :=
  [
    ("apps/clock".toList,
      ofStrings "clock status widget"
        "Loaded into the desktop chrome to display time information."
        "Uses shared texel primitives for drawing."),
    ("apps/statusbar".toList,
      ofStrings "status bar application"
        "Added to desktops to render workspace and mode metadata."
        "Works in both local and remote deployments."),
    ("apps/texelterm".toList,
      ofStrings "terminal application"
        "Spawned by desktop factories to provide shell access."
        "Wraps PTY management and integrates with the parser package."),
    ("apps/texelterm/parser".toList,
      ofStrings "terminal parser module"
        "Consumed by the terminal app when decoding VT sequences."
        "Keeps parsing concerns isolated from rendering."),
    ("apps/welcome".toList,
      ofStrings "welcome application"
        "Presented on new sessions to guide users through the interface."
        "Displays static content; simple example app."),
    ("client".toList,
      ofStrings "client runtime support library"
        "Imported by the remote renderer to manage \x7bfeature\x7d during live sessions."
        "Shared across multiple client binaries and tests."),
    ("client/cmd/texel-client".toList,
      ofStrings "remote client binary"
        "Invoked by end users to render the server-hosted desktop locally; other tooling wraps this runtime via internal/runtime/client.Run."
        "Depends on the client runtime packages; keep it thin so alternate front-ends can reuse the same code."),
    ("client/cmd/texel-headless".toList,
      ofStrings "headless client harness"
        "Used in CI and automated tests to validate protocol flows without opening a tcell screen."
        "Provides a minimal client for scripted scenarios."),
    ("cmd/texel-server".toList,
      ofStrings "server CLI harness"
        "Executed by operators to start the production server that manages sessions."
        "Focuses on wiring flags and lifecycle around the internal runtime."),
    ("cmd/texel-stress".toList,
      ofStrings "stress harness"
        "Run in integration environments to pressure-test server throughput and protocol stability."
        "Spawns multiple client connections to simulate load."),
    ("internal/effects".toList,
      ofStrings "client effect subsystem"
        "Used by the client runtime to orchestrate \x7bfeature\x7d visuals before rendering."
        "Centralises every pane and workspace overlay so they can be configured via themes."),
    ("internal/runtime/client".toList,
      ofStrings "remote client runtime"
        "Embedded by client binaries to handle \x7bfeature\x7d as part of the render/event loop."
        "Owns session management, rendering, and protocol interaction for remote front-ends."),
    ("internal/runtime/server".toList,
      ofStrings "server runtime"
        "Used by texel-server to coordinate \x7bfeature\x7d when hosting apps and sessions."
        "This package bridges the legacy desktop code with the client/server protocol implementation."),
    ("internal/runtime/server/testutil".toList,
      ofStrings "server runtime test utilities"
        "Imported by server tests when they need \x7bfeature\x7d helpers."
        "Not shipped with production binaries; only used in test code."),
    ("protocol".toList,
      ofStrings "protocol definitions"
        "Shared by clients and servers to encode \x7bfeature\x7d messages over the wire."
        "Keep changes backward-compatible; any additions require coordinated version bumps."),
    ("texel".toList,
      ofStrings "core desktop engine"
        "Used throughout the project to implement \x7bfeature\x7d inside the desktop and panes."
        "Legacy desktop logic migrated from the monolithic application."),
    ("texel/theme".toList,
      ofStrings "theme subsystem"
        "Accessed by both server and client when reading \x7bfeature\x7d from theme configurations."
        "Ensures user theme files always contain required defaults.")
  ]

end RuleConfig

namespace Config

def builtin : Config :=
  ⟨HeaderConfig.builtin, MarkerConfig.builtin, RuleConfig.builtinFallback, RuleConfig.builtinRules⟩

def required (config : Config) : List (String × Text) :=
  [ ("markers.spdx", config.markers.spdx), ("header.holder", config.header.holder),
    ("header.license", config.header.license) ]

def blankSetting? (config : Config) : Option ConfigError :=
  (config.required.find? fun (_, value) ↦ Text.isBlank value).map fun (key, _) ↦
    .invalidSetting key.toList "value cannot be empty".toList

def dottedExtension? (config : Config) : Option ConfigError :=
  (config.header.extensions.find? fun ext ↦ ext.head? = some '.').map fun ext ↦
    .invalidSetting "header.extensions".toList
      ("extension '".toList ++ ext ++ "' should not include leading dot".toList)

/-- The first rule without a component, the fallback rule before all others. -/
def namelessRule? (config : Config) : Option ConfigError :=
  ((("<default>".toList, config.fallback) :: config.rules).find? fun (_, rule) ↦
    Text.isBlank rule.component).map fun (directory, _) ↦
      .invalidRule directory "component cannot be empty".toList

/-- Refuses blank settings, dotted extensions and rules without a component. Whether directories
clash shows when the rule table is made. -/
def validate (config : Config) : Except ConfigError Unit :=
  match config.blankSetting? <|> config.dottedExtension? <|> config.namelessRule? with
  | some e => .error e
  | none => .ok ()

def fallbackNotes (config : Config) : Text := config.fallback.notes.getD []

def table (config : Config) : Except ConfigError RuleTable :=
  RuleTable.ofRules
    (config.rules.map fun (directory, rule) ↦
      ⟨directory, rule.component, rule.usage, rule.notes.getD config.fallbackNotes⟩)
    (DirectoryRule.fallback config.fallback.component config.fallback.usage config.fallbackNotes)

def withRule (config : Config) (directory : Text) (rule : RuleConfig) : Config :=
  let others := config.rules.filter fun (d, _) ↦ d != directory
  { config with rules := ((directory, rule) :: others).mergeSort fun a b ↦ Text.le a.1 b.1 }

def commentMark : Text := "//".toList

def settings (config : Config) (year : Text) : HeaderSettings where
  commentMark := commentMark
  holder := config.header.holder
  license := config.header.license
  year := year
  marker := config.markers.spdx
  benchSuffix := config.markers.benchSuffix
  testSuffixes := config.markers.testSuffixes
  benchUsage := config.markers.benchUsage
  testUsage := config.markers.testUsage

def inserter (config : Config) : Inserter :=
  ⟨config.markers.directive, config.markers.altDirective, .lf⟩

def detector (config : Config) : Detector := Detector.ofMarker config.markers.spdx

end Config

end HeaderStamp
