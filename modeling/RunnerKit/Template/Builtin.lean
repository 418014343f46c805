import RunnerKit.Template.Context
import RunnerKit.Template.Basic
/-!
This module contains the built-in templates. Both generate the same project, a runner in a program
of its own; they differ only in the object path that the program registers at.
-/

namespace RunnerKit

namespace Builtin

def unlines (lines : List String) : String := String.join (lines.map (· ++ "\n"))

def manifest : String := unlines [
  "# SPDX-FileCopyrightText: %\x7bCURRENT_YEAR\x7d %\x7bAUTHOR\x7d <%\x7bEMAIL\x7d>",
  "# SPDX-License-Identifier: LGPL-2.1-or-later",
  "",
  "[package]",
  "name = \"%\x7bAPPNAMELC\x7d\"",
  "version = \"0.1.0\"",
  "edition = \"2024\"",
  "authors = [\"%\x7bAUTHOR\x7d <%\x7bEMAIL\x7d>\"]",
  "description = \"%\x7bAPPNAME\x7d search runner for KRunner\"",
  "license = \"LGPL-2.1-or-later\"",
  "",
  "[dependencies]",
  "serde = \x7b version = \"1\", features = [\"derive\"] \x7d",
  "zbus = \"5.5\""]

def program (objectPath : String) : String := unlines [
  "// SPDX-FileCopyrightText: %\x7bCURRENT_YEAR\x7d %\x7bAUTHOR\x7d <%\x7bEMAIL\x7d>",
  "// SPDX-License-Identifier: LGPL-2.1-or-later",
  "",
  "use std::collections::HashMap;",
  "",
  "use serde::Serialize;",
  "use zbus::zvariant::\x7bType, Value\x7d;",
  "",
  "const BUS_NAME: &str = \"org.kde.%\x7bAPPNAMELC\x7d\";",
  "// Must match X-Plasma-DBusRunner-Path in the desktop file.",
  "const OBJECT_PATH: &str = \"" ++ objectPath ++ "\";",
  "",
  "/// data, text, icon, type, relevance, properties",
  "#[derive(Serialize, Type)]",
  "struct Match \x7b",
  "    data: String,",
  "    text: String,",
  "    icon: String,",
  "    category: i32,",
  "    relevance: f64,",
  "    properties: HashMap<String, Value<'static>>,",
  "\x7d",
  "",
  "/// id, text, icon",
  "#[derive(Serialize, Type)]",
  "struct Action \x7b",
  "    id: String,",
  "    text: String,",
  "    icon: String,",
  "\x7d",
  "",
  "struct Runner;",
  "",
  "#[zbus::interface(name = \"org.kde.krunner1\")]",
  "impl Runner \x7b",
  "    #[zbus(name = \"Match\")]",
  "    fn match_(&self, query: String) -> Vec<Match> \x7b",
  "        if query != \"hello\" \x7b",
  "            return Vec::new();",
  "        \x7d",
  "        let mut properties = HashMap::new();",
  "        properties.insert(\"subtext\".to_owned(), Value::from(\"Demo Subtext\"));",
  "        vec![Match \x7b",
  "            data: \"Hello\".into(),",
  "            text: \"Hello from %\x7bAPPNAME\x7d!\".into(),",
  "            icon: \"document-edit\".into(),",
  "            // ExactMatch",
  "            category: 100,",
  "            relevance: 1.0,",
  "            properties,",
  "        \x7d]",
  "    \x7d",
  "",
  "    #[zbus(name = \"Actions\")]",
  "    fn actions(&self) -> Vec<Action> \x7b",
  "        vec![Action \x7b",
  "            id: \"id\".into(),",
  "            text: \"Tooltip\".into(),",
  "            icon: \"planetkde\".into(),",
  "        \x7d]",
  "    \x7d",
  "",
  "    #[zbus(name = \"Run\")]",
  "    fn run(&self, data: String, action_id: String) \x7b",
  "        println!(\"\x7bdata\x7d \x7baction_id\x7d\");",
  "    \x7d",
  "",
  "    /// Called when a search session ends, because the desktop file sets",
  "    /// X-Plasma-Runner-Lifecycle-Methods.",
  "    #[zbus(name = \"Teardown\")]",
  "    fn teardown(&self) \x7b\x7d",
  "\x7d",
  "",
  "fn main() -> zbus::Result<()> \x7b",
  "    let _connection = zbus::blocking::connection::Builder::session()?",
  "        .name(BUS_NAME)?",
  "        .serve_at(OBJECT_PATH, Runner)?",
  "        .build()?;",
  "",
  "    loop \x7b",
  "        std::thread::park();",
  "    \x7d",
  "\x7d"]

def desktopEntry (objectPath : String) : String := unlines [
  "# SPDX-FileCopyrightText: %\x7bCURRENT_YEAR\x7d %\x7bAUTHOR\x7d <%\x7bEMAIL\x7d>",
  "# SPDX-License-Identifier: LGPL-2.1-or-later",
  "",
  "[Desktop Entry]",
  "Name=%\x7bAPPNAME\x7d",
  "Comment=%\x7bAPPNAME\x7d search runner",
  "X-KDE-ServiceTypes=Plasma/Runner",
  "Type=Service",
  "Icon=planetkde",
  "X-KDE-PluginInfo-Author=%\x7bAUTHOR\x7d",
  "X-KDE-PluginInfo-Email=%\x7bEMAIL\x7d",
  "X-KDE-PluginInfo-Name=%\x7bAPPNAMELC\x7d",
  "X-KDE-PluginInfo-Version=0.1.0",
  "X-KDE-PluginInfo-License=LGPL",
  "X-KDE-PluginInfo-EnabledByDefault=true",
  "X-Plasma-API=DBus",
  "X-Plasma-DBusRunner-Service=org.kde.%\x7bAPPNAMELC\x7d",
  "X-Plasma-DBusRunner-Path=" ++ objectPath,
  "X-Plasma-Runner-Lifecycle-Methods=true"]

def activation : String := unlines [
  "# SPDX-FileCopyrightText: %\x7bCURRENT_YEAR\x7d %\x7bAUTHOR\x7d <%\x7bEMAIL\x7d>",
  "# SPDX-License-Identifier: LGPL-2.1-or-later",
  "",
  "[D-BUS Service]",
  "Name=org.kde.%\x7bAPPNAMELC\x7d",
  "Exec=%\x7bBINDIR\x7d/%\x7bAPPNAMELC\x7d"]

def readme : String := unlines [
  "<!--",
  "SPDX-FileCopyrightText: %\x7bCURRENT_YEAR\x7d %\x7bAUTHOR\x7d <%\x7bEMAIL\x7d>",
  "SPDX-License-Identifier: LGPL-2.1-or-later",
  "-->",
  "",
  "# %\x7bAPPNAME\x7d",
  "",
  "A KRunner plugin that runs as its own process and talks to the search host",
  "over the session bus.",
  "",
  "Typing `hello` into KRunner shows a single match, \"Hello from %\x7bAPPNAME\x7d!\".",
  "Choosing it (or its action) prints the match id and action id to stdout.",
  "",
  "## Building and installing",
  "",
  "```sh",
  "cargo build --release",
  "install -Dm755 target/release/%\x7bAPPNAMELC\x7d %\x7bBINDIR\x7d/%\x7bAPPNAMELC\x7d",
  "mkdir -p ~/.local/share/krunner/dbusplugins ~/.local/share/dbus-1/services",
  "cp %\x7bAPPNAMELC\x7d.desktop ~/.local/share/krunner/dbusplugins/",
  "cp org.kde.%\x7bAPPNAMELC\x7d.service ~/.local/share/dbus-1/services/",
  "kquitapp6 krunner",
  "```",
  "",
  "The service file lets the bus start `%\x7bBINDIR\x7d/%\x7bAPPNAMELC\x7d` on demand. The bus",
  "does not search `PATH`, so if the binary lives elsewhere, edit the `Exec=` line",
  "to its full path.",
  "",
  "## Debugging",
  "",
  "Run `%\x7bAPPNAMELC\x7d` in a terminal before opening KRunner to see its output.",
  "`X-Plasma-Runner-Lifecycle-Methods=true` in the desktop file makes KRunner",
  "call `Teardown` when a search session ends. Set",
  "`X-Plasma-Request-Actions-Once=true` there too if the actions never change",
  "between queries."]

def template (id description : String) (style : PathStyle) (objectPath : String) : Template where
  id
  description
  pathStyle := style
  files := [
    { path := .ofString "Cargo.toml", content := manifest },
    { path := .ofString "src/main.rs", content := program objectPath },
    { path := .ofString "%\x7bAPPNAMELC\x7d.desktop", content := desktopEntry objectPath },
    { path := .ofString "org.kde.%\x7bAPPNAMELC\x7d.service", content := activation },
    { path := .ofString "README.md", content := readme }]

def runner : Template :=
  template "runner" "D-Bus search runner at the default object path" .default "/runner"

def runnerScoped : Template :=
  template "runner-scoped" "D-Bus search runner at an object path named after the app" .appScoped
    "/%\x7bAPPNAMELC\x7d"

def all : List Template := [runner, runnerScoped]

end Builtin

end RunnerKit
