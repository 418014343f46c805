/-!
This module contains the styles of text on a terminal. A style is switched on before the text and
off after it.
-/

namespace RunnerKit

namespace Style

def escape (code : String) : String := "\x1b[" ++ code ++ "m"

def bold (text : String) : String := escape "1" ++ text ++ escape "0"
def dimmed (text : String) : String := escape "2" ++ text ++ escape "0"

def coloured (code text : String) : String := escape code ++ text ++ escape "39"

def red (text : String) : String := coloured "31" text
def green (text : String) : String := coloured "32" text
def yellow (text : String) : String := coloured "33" text
def blue (text : String) : String := coloured "34" text
def cyan (text : String) : String := coloured "36" text

end Style

end RunnerKit
